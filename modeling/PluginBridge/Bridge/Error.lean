import PluginBridge.Envelope
import PluginBridge.Transport.Error

/-!
# Failures of calls across the bridge

What a caller on this side learns of a failed call, and the failures that implementations and
commands report: an error of its own words, one of the layers below, or either of them in a context.
-/
namespace PluginBridge

inductive BridgeError where
  | transport (method : String) (error : TransportError)
  | configuration (index : Nat) (error : CodecError)
  | codec (error : CodecError)
  | remote (envelope : Envelope)
  | callbackServer (error : TransportError)
deriving DecidableEq, Inhabited

namespace BridgeError

def message : BridgeError → String
  | transport method error => s!"{method} failed: {error.message}"
  | configuration index error =>
    s!"configuration value {index} could not be encoded: {error.message}"
  | codec error => error.message
  | remote envelope => envelope.message
  | callbackServer error => s!"callback server: {error.message}"

def chain : BridgeError → List String
  | error@(transport _ cause) => error.message :: cause.chain
  | error@(configuration _ cause) => error.message :: cause.chain
  | codec error => error.chain
  | error@(remote _) => [error.message]
  | error@(callbackServer cause) => error.message :: cause.chain

end BridgeError

inductive Failure where
  | text (message : String)
  | io (error : IoError)
  | transport (error : TransportError)
  | bridge (error : BridgeError)
  | context (text : String) (cause : Failure)
deriving DecidableEq, Inhabited

namespace Failure

/-- The outermost text, the only one that crosses the boundary. -/
def message : Failure → String
  | text own => own
  | io error => error.message
  | transport error => error.message
  | bridge error => error.message
  | context outer _ => outer

def chain : Failure → List String
  | text own => [own]
  | io error => [error.message]
  | transport error => error.chain
  | bridge error => error.chain
  | context outer cause => outer :: cause.chain

/-- What is left of a failure on the other side of a bridge: its outermost text and its kind. -/
def afar (kind : ErrorKind) (failure : Failure) : Failure :=
  bridge (.remote ⟨failure.message, some kind⟩)

end Failure

def Envelope.ofResult {α : Type} (kind : ErrorKind) : Except Failure α → Option Envelope
  | .ok _ => none
  | .error failure => some ⟨failure.message, some kind⟩

end PluginBridge
