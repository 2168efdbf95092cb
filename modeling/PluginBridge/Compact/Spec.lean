import PluginBridge.Compact.Value
import PluginBridge.Spec

/-!
# Types and specifications in the compact encoding
-/
namespace PluginBridge.Compact

mutual

def writeTy : Ty → Bytes
  | .any => varint 0
  | .bool => varint 1
  | .number => varint 2
  | .string => varint 3
  | .list item => varint 4 ++ writeTy item
  | .set item => varint 5 ++ writeTy item
  | .map item => varint 6 ++ writeTy item
  | .tuple items => varint 7 ++ varint items.length ++ writeTys items
  | .object attributes => varint 8 ++ varint attributes.length ++ writeAttributes attributes

def writeTys : List Ty → Bytes
  | [] => []
  | ty :: rest => writeTy ty ++ writeTys rest

def writeAttributes : List (String × Ty) → Bytes
  | [] => []
  | (name, ty) :: rest => Form.text.write name ++ writeTy ty ++ writeAttributes rest

end

def readTyWithin : Nat → Reader Error Ty
  | 0 => throw .endOfBuffer
  | depth + 1 => do
    match ← readVarint 32 with
    | 0 => pure .any
    | 1 => pure .bool
    | 2 => pure .number
    | 3 => pure .string
    | 4 => Ty.list <$> readTyWithin depth
    | 5 => Ty.set <$> readTyWithin depth
    | 6 => Ty.map <$> readTyWithin depth
    | 7 => Ty.tuple <$> readCounted (readTyWithin depth)
    | 8 => (Ty.object ∘ Fields.ofList) <$> readCounted (readNamed (readTyWithin depth))
    | _ => throw .unknownVariant

def readTy : Reader Error Ty := fun bytes =>
  readTyWithin (bytes.length + 1) bytes

mutual

def writeSpec : Spec → Bytes
  | .object entries => varint 0 ++ varint entries.length ++ writeEntries entries
  | .attr name ty required =>
    varint 1 ++ Form.text.write name ++ writeTy ty ++ Form.bool.write required
  | .block name nested required =>
    varint 2 ++ Form.text.write name ++ writeSpec nested ++ Form.bool.write required
  | .blockList name nested least most =>
    varint 3 ++ Form.text.write name ++ writeSpec nested ++ Form.word32.write least ++
      Form.word32.write most
  | .literal value => varint 4 ++ writeValue value
  | .fallback primary otherwise => varint 5 ++ writeSpec primary ++ writeSpec otherwise

def writeEntries : List (String × Spec) → Bytes
  | [] => []
  | (name, spec) :: rest => Form.text.write name ++ writeSpec spec ++ writeEntries rest

end

def readSpecWithin : Nat → Reader Error Spec
  | 0 => throw .endOfBuffer
  | depth + 1 => do
    match ← readVarint 32 with
    | 0 => (Spec.object ∘ Fields.ofList) <$> readCounted (readNamed (readSpecWithin depth))
    | 1 => do
      let name ← Form.text.read
      let ty ← readTy
      let required ← Form.bool.read
      pure (.attr name ty required)
    | 2 => do
      let name ← Form.text.read
      let nested ← readSpecWithin depth
      let required ← Form.bool.read
      pure (.block name nested required)
    | 3 => do
      let name ← Form.text.read
      let nested ← readSpecWithin depth
      let least ← Form.word32.read
      let most ← Form.word32.read
      pure (.blockList name nested least most)
    | 4 => Spec.literal <$> readValue
    | 5 => do
      let primary ← readSpecWithin depth
      let otherwise ← readSpecWithin depth
      pure (.fallback primary otherwise)
    | _ => throw .unknownVariant

def readSpec : Reader Error Spec := fun bytes =>
  readSpecWithin (bytes.length + 1) bytes

def Form.ty : Form Ty where
  write := writeTy
  read := readTy

def Form.spec : Form Spec where
  write := writeSpec
  read := readSpec

/-- Specifications by output name; of two with one name the last counts. -/
def Form.objectSpec : Form ObjectSpec where
  write spec := varint spec.length ++ writeEntries spec
  read := Fields.ofList <$> readCounted (readNamed readSpec)

end PluginBridge.Compact
