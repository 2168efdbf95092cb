import PluginBridge.Cbor
import PluginBridge.Compact
import PluginBridge.Wire

/-!
# Failures of encoding and decoding
-/
namespace PluginBridge

inductive CodecError where
  | compact (error : Compact.Error)
  | cbor (error : Cbor.Error)
  | unregistered (typeName : String)
  | typeMismatch (expected found : Ty)
  | typeExpression (error : Ty.ParseError)
  | wire (error : WireError)
deriving DecidableEq, Inhabited

namespace CodecError

def ofWire : WireError → CodecError
  | .typeExpression error => typeExpression error
  | error => wire error

def message : CodecError → String
  | compact error => s!"postcard: {error.message}"
  | cbor error => s!"cbor decode: {error.message}"
  | unregistered typeName => s!"type `{typeName}` is not registered with the legacy codec"
  | typeMismatch expected found =>
    s!"decoded value has type {found.expression}, expected {expected.expression}"
  | typeExpression error => error.message
  | wire error => error.message

end CodecError

end PluginBridge
