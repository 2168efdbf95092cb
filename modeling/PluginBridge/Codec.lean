import PluginBridge.Capability
import PluginBridge.Cbor.Wire
import PluginBridge.Codec.TypeRegistry
import PluginBridge.Compact.Spec
import PluginBridge.Value.Typing

/-!
# Codecs

How a connection writes values, results and specifications. A result carries its type: in the
compact encoding the name of a registered type, in the self-describing one a type expression that
the value has to match. Bytes behind an item are ignored.
-/
namespace PluginBridge

/-- The mode of a connection and the types registered on this side of it. -/
structure Codec where
  mode : Mode
  types : TypeRegistry

namespace Codec

def ofMode (mode : Mode) : Codec :=
  ⟨mode, .builtin⟩

def encodeValue (codec : Codec) (value : Value) : Bytes :=
  match codec.mode with
  | .legacy => Compact.writeValue value
  | .current => Cbor.writeValue value

def decodeValue (codec : Codec) (bytes : Bytes) : Except CodecError Value :=
  match codec.mode with
  | .legacy => (Compact.readValue.front bytes).mapError .compact
  | .current => (Cbor.readValue.front bytes).mapError .cbor

def encodeResult (codec : Codec) (value : Value) : Except CodecError Bytes :=
  match codec.mode with
  | .legacy => codec.types.encode .value value
  | .current => .ok (Cbor.writeTyped value.ty.expression value)

def checkTyped (expression : String) (value : Value) : Except CodecError Value := do
  let expected ← (Ty.parse expression).mapError .typeExpression
  if value.ty = expected then .ok value else .error (.typeMismatch expected value.ty)

def decodeResult (codec : Codec) (bytes : Bytes) : Except CodecError Value :=
  match codec.mode with
  | .legacy => codec.types.decode bytes
  | .current => do
    let (expression, value) ← (Cbor.readTyped.front bytes).mapError .cbor
    checkTyped expression value

def encodeSpec (codec : Codec) (spec : ObjectSpec) : Bytes :=
  match codec.mode with
  | .legacy => Compact.Form.objectSpec.write spec
  | .current => Cbor.writeDocument (.ofSpec spec)

def decodeSpec (codec : Codec) (bytes : Bytes) : Except CodecError ObjectSpec :=
  match codec.mode with
  | .legacy => (Compact.Form.objectSpec.decode bytes).mapError .compact
  | .current => do
    let document ← (Cbor.readDocument.front bytes).mapError .cbor
    document.toSpec.mapError .ofWire

end Codec

end PluginBridge
