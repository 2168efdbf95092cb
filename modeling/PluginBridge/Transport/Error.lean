import PluginBridge.Codec.Error

/-!
# Transport failures

Failures of a connection, of the service at its other end, and of the operating system below.
-/
namespace PluginBridge

inductive IoError where
  | earlyEof
  | networkUnreachable
  | refused
  | invalidSocketAddress
  | invalidPort
  | noSuchFile
  | notADirectory
  | isADirectory
  | nameTooLong
  | invalidText
  | other (text : String)
deriving DecidableEq, Inhabited

def IoError.message : IoError → String
  | earlyEof => "early eof"
  | networkUnreachable => "Network is unreachable (os error 101)"
  | refused => "Connection refused (os error 111)"
  | invalidSocketAddress => "invalid socket address"
  | invalidPort => "invalid port value"
  | noSuchFile => "No such file or directory (os error 2)"
  | notADirectory => "Not a directory (os error 20)"
  | isADirectory => "Is a directory (os error 21)"
  | nameTooLong => "File name too long (os error 36)"
  | invalidText => "stream did not contain valid UTF-8"
  | other text => text

inductive TransportError where
  | io (error : IoError)
  | compact (error : Compact.Error)
  | frameTooLarge (size : Nat)
  | dial (address : String) (error : IoError)
  | connectionClosed
  | serverError (text : String)
  | malformedMethod (method : String)
  | unknownService (name : String)
  | unknownMethod (name : String)
  | duplicateService (name : String)
  | serverStarted
  | codec (error : CodecError)
deriving DecidableEq, Inhabited

namespace TransportError

def message : TransportError → String
  | io error => s!"io: {error.message}"
  | compact error => s!"postcard: {error.message}"
  | frameTooLarge size => s!"frame of {size} bytes exceeds the transport limit"
  | dial address error => s!"failed to dial {address}: {error.message}"
  | connectionClosed => "connection closed"
  | serverError text => text
  | malformedMethod method => s!"method `{method}` is not of the form <endpoint>.<method>"
  | unknownService name => s!"can't find service `{name}`"
  | unknownMethod name => s!"can't find method `{name}`"
  | duplicateService name => s!"service `{name}` is already registered"
  | serverStarted => "server already started; its registry is closed"
  | codec error => error.message

end TransportError

def CodecError.chain : CodecError → List String
  | error@(compact cause) => [error.message, cause.message]
  | error@(cbor cause) => [error.message, cause.message]
  | error => [error.message]

def TransportError.chain : TransportError → List String
  | error@(io cause) => [error.message, cause.message]
  | error@(compact cause) => [error.message, cause.message]
  | error@(dial _ cause) => [error.message, cause.message]
  | codec error => error.chain
  | error => [error.message]

end PluginBridge
