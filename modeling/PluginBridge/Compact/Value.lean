import PluginBridge.Compact
import PluginBridge.Value

/-!
# Values in the compact encoding

The position of the kind of value, then its content.
-/
namespace PluginBridge.Compact

mutual

def writeValue : Value → Bytes
  | .null => varint 0
  | .bool truth => varint 1 ++ Form.bool.write truth
  | .number number => varint 2 ++ Form.number.write number
  | .string text => varint 3 ++ Form.text.write text
  | .list items => varint 4 ++ varint items.length ++ writeItems items
  | .set items => varint 5 ++ varint items.length ++ writeItems items
  | .tuple items => varint 6 ++ varint items.length ++ writeItems items
  | .map members => varint 7 ++ varint members.length ++ writeMembers members
  | .object members => varint 8 ++ varint members.length ++ writeMembers members

def writeItems : List Value → Bytes
  | [] => []
  | item :: rest => writeValue item ++ writeItems rest

def writeMembers : List (String × Value) → Bytes
  | [] => []
  | (name, value) :: rest => Form.text.write name ++ writeValue value ++ writeMembers rest

end

def readNamed {α : Type} (content : Reader Error α) : Reader Error (String × α) := do
  let name ← Form.text.read
  let a ← content
  pure (name, a)

def readCounted {α : Type} (item : Reader Error α) : Reader Error (List α) := do
  let count ← Form.size.read
  Reader.exactly item count

/-- Reads a value in which at most so many values are nested. Of two members with one name the
last counts. -/
def readValueWithin : Nat → Reader Error Value
  | 0 => throw .endOfBuffer
  | depth + 1 => do
    match ← readVarint 32 with
    | 0 => pure .null
    | 1 => Value.bool <$> Form.bool.read
    | 2 => Value.number <$> Form.number.read
    | 3 => Value.string <$> Form.text.read
    | 4 => Value.list <$> readCounted (readValueWithin depth)
    | 5 => Value.set <$> readCounted (readValueWithin depth)
    | 6 => Value.tuple <$> readCounted (readValueWithin depth)
    | 7 => (Value.map ∘ Fields.ofList) <$> readCounted (readNamed (readValueWithin depth))
    | 8 => (Value.object ∘ Fields.ofList) <$> readCounted (readNamed (readValueWithin depth))
    | _ => throw .unknownVariant

/-- Reads a value. Each nested value takes a byte, so the bytes bound the depth. -/
def readValue : Reader Error Value := fun bytes =>
  readValueWithin (bytes.length + 1) bytes

def Form.value : Form Value where
  write := writeValue
  read := readValue

end PluginBridge.Compact
