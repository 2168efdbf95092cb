import PluginBridge.Transport.Client
import PluginBridge.Transport.Registry

/-!
# Services and calls

A service answers calls from its state. While it handles one it may dial an address and make calls
of its own there. A link joins a client to the services at the other end of its connection: a call
goes there as the bytes of a request frame and comes back as those of a reply.
-/
namespace PluginBridge

inductive Handling (σ : Type) where
  | reply (state : σ) (result : Except TransportError Bytes)
  | dial (address : String) (next : Except TransportError Unit → Handling σ)
  | call (method : String) (body : Bytes)
      (next : Except TransportError ResponseFrame → Handling σ)
  | hangUp (next : Handling σ)

abbrev Service (σ : Type) := String → Bytes → σ → Handling σ

namespace Service

variable {σ τ : Type}

def ofAnswer (answer : String → Bytes → σ → σ × Except TransportError Bytes) : Service σ :=
  fun method body state =>
    let (next, result) := answer method body state
    .reply next result

end Service

/-- The same handling by a service whose state is part of a larger one. -/
def Handling.within {σ ρ : Type} (put : σ → ρ) : Handling σ → Handling ρ
  | reply state result => .reply (put state) result
  | dial address next => .dial address fun result => (next result).within put
  | call method body next => .call method body fun result => (next result).within put
  | hangUp next => .hangUp (next.within put)

/-- What a service can reach while it handles a call. A call there may never return. -/
structure World (τ : Type) where
  dial : String → τ → τ × Except TransportError Unit
  call : String → Bytes → τ → τ × Option (Except TransportError ResponseFrame)
  hangUp : τ → τ

namespace World

variable {τ : Type}

/-- The failure to dial an address that names no port of a host; none if it could be dialled. -/
def addressFault? (address : String) : Option IoError :=
  match (address.splitOn ":").reverse with
  | [] | [_] => some .invalidSocketAddress
  | port :: _ =>
    let digits := match port.toList with
      | '+' :: rest => rest
      | all => all
    if digits.isEmpty ∨ !digits.all Char.isDigit then some .invalidPort
    else if 65535 < (String.ofList digits).toNat?.getD 65536 then some .invalidPort
    else none

def unreachable : World τ where
  dial address state :=
    (state, .error (.dial address ((addressFault? address).getD .networkUnreachable)))
  call _ _ state := (state, some (.error .connectionClosed))
  hangUp state := state

end World

namespace Handling

variable {σ τ : Type}

/-- Carries out what a service does; none if one of its calls never returns. -/
def run (world : World τ) : Handling σ → τ → τ × Option (σ × Except TransportError Bytes)
  | reply state result, outside => (outside, some (state, result))
  | dial address next, outside =>
    let (outside, result) := world.dial address outside
    (next result).run world outside
  | call method body next, outside =>
    match world.call method body outside with
    | (outside, some result) => (next result).run world outside
    | (outside, none) => (outside, none)
  | hangUp next, outside => next.run world (world.hangUp outside)

end Handling

abbrev Server (σ : Type) := Registry (Service σ)

namespace Server

variable {σ τ : Type}

def handle (server : Server σ) (method : String) (body : Bytes) (state : σ) : Handling σ :=
  match Registry.route server method with
  | .ok (service, method) => service method body state
  | .error error => .reply state (.error error)

def replyFrame (seq : UInt64) : Except TransportError Bytes → ResponseFrame
  | .ok body => ⟨seq, body, none⟩
  | .error error => ⟨seq, [], some error.message⟩

/-- The bytes that a finished call writes: a reply that is too large is not written. -/
def replyBytes (seq : UInt64) (result : Except TransportError Bytes) : Bytes :=
  match Frame.write ResponseFrame.form (replyFrame seq result) with
  | .ok bytes => bytes
  | .error _ => []

end Server

structure Link (σ : Type) where
  client : Client
  server : Server σ
  state : σ

namespace Link

variable {σ τ : Type}

def connect (server : Server σ) (state : σ) : Link σ :=
  ⟨{}, server, state⟩

/-- What the caller that waits on a channel gets for the bytes that come back; none if nothing
does. -/
def receiveReply (client : Client) (channel : Nat) (bytes : Bytes) :
    Client × Option (Except TransportError ResponseFrame) :=
  match Frame.read ResponseFrame.form bytes with
  | (.frame frame, _) =>
    match client.receive? frame.seq with
    | some (client, found) => (client, if found = channel then some (.ok frame) else none)
    | none => (client, none)
  | (.closed, _) => (client, none)
  | (.failed _, _) => (client.disconnect, some (.error .connectionClosed))

def serveRequest (world : World τ) (server : Server σ) (bytes : Bytes) (state : σ)
    (outside : τ) : τ × σ × Bytes :=
  match Frame.read RequestFrame.form bytes with
  | (.frame request, _) =>
    match (server.handle request.method request.body state).run world outside with
    | (outside, some (state, result)) => (outside, state, Server.replyBytes request.seq result)
    | (outside, none) => (outside, state, [])
  | _ => (outside, state, [])

/-- Makes a call and waits for its reply; none if it never comes. The channel is named by the place
of the call among those of the client. -/
def call (world : World τ) (method : String) (body : Bytes) (link : Link σ) (outside : τ) :
    Link σ × τ × Option (Except TransportError ResponseFrame) :=
  let (client, seq) := link.client.draw
  let channel := seq.toNat - 1
  match client.register? seq channel with
  | none => ({ link with client := client }, outside, some (.error .connectionClosed))
  | some client =>
    match Frame.write RequestFrame.form ⟨seq, method, body⟩ with
    | .error error =>
      ({ link with client := client.forget seq }, outside, some (.error error))
    | .ok bytes =>
      let (outside, state, reply) := serveRequest world link.server bytes link.state outside
      let (client, result) := receiveReply client channel reply
      ({ link with client := client, state := state }, outside, result)

def close (link : Link σ) : Link σ :=
  { link with client := link.client.disconnect }

end Link

end PluginBridge
