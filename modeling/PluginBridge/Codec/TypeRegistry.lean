import PluginBridge.Codec.Error
import PluginBridge.Compact.Value

/-!
# Registered result types

In the compact encoding a result carries the name of its type, and only a type registered under
that name can read it. A registry holds a reader for each name and a name for each type. A name
that is registered again gets the new reader, a type that is registered again the new name.
-/
namespace PluginBridge

/-- A type whose data can be results: what identifies it, how its data are written, and the value
each stands for. -/
structure ResultType (α : Type) where
  identifier : String
  form : Compact.Form α
  toValue : α → Value

def ResultType.decode {α : Type} (type : ResultType α) (payload : Bytes) :
    Except CodecError Value :=
  match type.form.decode payload with
  | .ok a => .ok (type.toValue a)
  | .error error => .error (.compact error)

def ResultType.value : ResultType Value where
  identifier := "ferry_plugin_sdk::value::Value"
  form := .value
  toValue := id

structure TypeRegistry where
  readers : List (String × (Bytes → Except CodecError Value)) := []
  names : List (String × String) := []

namespace TypeRegistry

variable {α : Type}

def empty : TypeRegistry := {}

def register (registry : TypeRegistry) (name : String) (type : ResultType α) : TypeRegistry where
  readers := (name, type.decode) :: registry.readers
  names := (type.identifier, name) :: registry.names

def valueName : String := "ferry.Value"

def registerBuiltin (registry : TypeRegistry) : TypeRegistry :=
  registry.register valueName .value

def builtin : TypeRegistry :=
  empty.registerBuiltin

def isRegistered (registry : TypeRegistry) (name : String) : Bool :=
  (registry.readers.lookup name).isSome

def blob : Compact.Form (String × Bytes) :=
  .pair .text .bytes

def encode (registry : TypeRegistry) (type : ResultType α) (a : α) : Except CodecError Bytes :=
  match registry.names.lookup type.identifier with
  | some name => .ok (blob.write (name, type.form.write a))
  | none => .error (.unregistered type.identifier)

def decode (registry : TypeRegistry) (bytes : Bytes) : Except CodecError Value := do
  let (name, payload) ← (blob.decode bytes).mapError .compact
  match registry.readers.lookup name with
  | some read => read payload
  | none => .error (.unregistered name)

end TypeRegistry

end PluginBridge
