import PluginBridge.Bridge.Message
import PluginBridge.Builder
import PluginBridge.Transport.Service

/-!
# Calling back the host

The sinks of a host as two services, one for the build and one for the user interface, and a
conversation as calls to them.
-/
namespace PluginBridge

namespace Sink

def buildEndpoint : String := "Build"

def uiEndpoint : String := "Ui"

def endpoint : Sink → String
  | progress => buildEndpoint
  | _ => uiEndpoint

def method : Sink → String
  | progress => "Progress"
  | say => "Say"
  | message => "Message"
  | error => "Error"

end Sink

namespace Host

variable {τ : Type}

def answerTell (host : Host τ) (sink : Sink) (body : Bytes) (state : τ) :
    τ × Except TransportError Bytes :=
  match Message.read Message.text body with
  | .error error => (state, .error error)
  | .ok text =>
    let (state, result) := host.tell sink text state
    (state, .ok (Message.acknowledgement.write (Envelope.ofResult .callback result)))

def nameReply : Except Failure String → String × Option Envelope
  | .ok name => (name, none)
  | .error failure => ("", some ⟨failure.message, some .callback⟩)

def answerBuild (host : Host τ) (method : String) (body : Bytes) (state : τ) :
    τ × Except TransportError Bytes :=
  match method with
  | "Name" =>
    let (state, result) := host.name state
    (state, .ok (Message.named.write (nameReply result)))
  | "Progress" => host.answerTell .progress body state
  | other => (state, .error (.unknownMethod (Registry.methodName Sink.buildEndpoint other)))

def answerUi (host : Host τ) (method : String) (body : Bytes) (state : τ) :
    τ × Except TransportError Bytes :=
  match method with
  | "Say" => host.answerTell .say body state
  | "Message" => host.answerTell .message body state
  | "Error" => host.answerTell .error body state
  | other => (state, .error (.unknownMethod (Registry.methodName Sink.uiEndpoint other)))

def buildService (host : Host τ) : Service τ :=
  Service.ofAnswer host.answerBuild

def uiService (host : Host τ) : Service τ :=
  Service.ofAnswer host.answerUi

end Host

/-- Holds a conversation by calls to the host's services, and goes on with its result. -/
def Conversation.byCalls {ρ σ : Type} : Conversation ρ → (ρ → Handling σ) → Handling σ
  | done result, next => next result
  | askName rest, next =>
    let method := Registry.methodName Sink.buildEndpoint "Name"
    .call method (Message.nothing.write ()) fun reply =>
      let answer := (Message.settle method Message.named (·.2) reply).mapError Failure.bridge
      (rest (answer.map (·.1))).byCalls next
  | tell sink text rest, next =>
    let method := Registry.methodName sink.endpoint sink.method
    .call method (Message.text.write text) fun reply =>
      let answer := (Message.settle method Message.acknowledgement id reply).mapError Failure.bridge
      (rest (answer.map fun _ => ())).byCalls next

end PluginBridge
