import PluginBridge.Cbor
import PluginBridge.Value

/-!
# Values in the self-describing encoding

A value is a map of one entry, from the name of its kind to its content; null is the name alone.
-/
namespace PluginBridge.Cbor

def writeChoice (name : String) (content : Bytes) : Bytes :=
  mapHeader 1 ++ writeText name ++ content

mutual

def writeValue : Value → Bytes
  | .null => writeText "Null"
  | .bool truth => writeChoice "Bool" (writeBool truth)
  | .number number => writeChoice "Number" (writeNumber number)
  | .string text => writeChoice "String" (writeText text)
  | .list items => writeChoice "List" (arrayHeader items.length ++ writeItems items)
  | .set items => writeChoice "Set" (arrayHeader items.length ++ writeItems items)
  | .tuple items => writeChoice "Tuple" (arrayHeader items.length ++ writeItems items)
  | .map members => writeChoice "Map" (mapHeader members.length ++ writeMembers members)
  | .object members => writeChoice "Object" (mapHeader members.length ++ writeMembers members)

def writeItems : List Value → Bytes
  | [] => []
  | item :: rest => writeValue item ++ writeItems rest

def writeMembers : List (String × Value) → Bytes
  | [] => []
  | (name, value) :: rest => writeText name ++ writeValue value ++ writeMembers rest

end

inductive Kind where
  | null
  | bool
  | number
  | string
  | list
  | set
  | tuple
  | map
  | object
deriving DecidableEq, Inhabited

def Kind.name : Kind → String
  | null => "Null"
  | bool => "Bool"
  | number => "Number"
  | string => "String"
  | list => "List"
  | set => "Set"
  | tuple => "Tuple"
  | map => "Map"
  | object => "Object"

def Kind.all : List Kind :=
  [null, bool, number, string, list, set, tuple, map, object]

def readKind : Reader Error Kind := do
  let name ← readName
  match Kind.all.find? fun kind => Text.utf8 kind.name == name with
  | some kind => pure kind
  | none => throw .unexpected

mutual

/-- Reads a value, entering at most so many items. The content of null is not read. -/
def readValueWithin : Nat → Reader Error Value
  | 0 => do
    openChoice
    throw .tooDeep
  | depth + 1 => do
    openChoice
    match ← readKind with
    | .null => pure .null
    | .bool => Value.bool <$> readBool
    | .number => Value.number <$> readNumber
    | .string => Value.string <$> readText
    | .list => Value.list <$> readItems depth
    | .set => Value.set <$> readItems depth
    | .tuple => Value.tuple <$> readItems depth
    | .map => (Value.map ∘ Fields.ofList) <$> readMembers depth
    | .object => (Value.object ∘ Fields.ofList) <$> readMembers depth

def readItems : Nat → Reader Error (List Value)
  | 0 => do
    match ← openArray with
    | none => pure []
    | some _ => throw .tooDeep
  | depth + 1 => do
    match ← openArray with
    | none => pure []
    | some count? => collect count? (readValueWithin depth)

def readMembers : Nat → Reader Error (List (String × Value))
  | 0 => do
    let _ ← openMap
    throw .tooDeep
  | depth + 1 => do
    let count? ← openMap
    collect count? do
      let name ← readText
      let value ← readValueWithin depth
      pure (name, value)

end

def readValue : Reader Error Value :=
  readValueWithin depthLimit

end PluginBridge.Cbor
