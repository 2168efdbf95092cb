import PluginBridge.Bridge.Error
import PluginBridge.Transport.Frame

/-!
# Messages

The bodies of calls and replies, in the compact encoding in both modes. A blob inside them is an
item of the connection's own encoding.
-/
namespace PluginBridge.Message

def text : Compact.Form String := .text

/-- The reply to a call without a value: an envelope if it failed. -/
def acknowledgement : Compact.Form (Option Envelope) := .option Envelope.form

def named : Compact.Form (String × Option Envelope) := .pair .text acknowledgement

def blob : Compact.Form Bytes := .bytes

def blobs : Compact.Form (List Bytes) := .list .bytes

def outcome : Compact.Form (Bytes × Option Envelope) := .pair .bytes acknowledgement

def nothing : Compact.Form Unit := .nothing

variable {α : Type}

def read (form : Compact.Form α) (body : Bytes) : Except TransportError α :=
  (form.decode body).mapError .compact

/-- What a caller makes of a reply. An envelope in it wins over an error of the transport, and that
over a body that cannot be read. -/
def settle (method : String) (form : Compact.Form α) (envelope? : α → Option Envelope) :
    Except TransportError ResponseFrame → Except BridgeError α
  | .error error => .error (.transport method error)
  | .ok frame =>
    match form.decode frame.body, frame.error with
    | .ok reply, error =>
      match envelope? reply with
      | some envelope => .error (.remote envelope)
      | none =>
        match error with
        | some text => .error (.transport method (.serverError text))
        | none => .ok reply
    | .error _, some text => .error (.transport method (.serverError text))
    | .error error, none => .error (.transport method (.compact error))

end PluginBridge.Message
