import PluginBridge.Cbor.Value
import PluginBridge.Wire

/-!
# Specification messages in the self-describing encoding

Maps from field names to contents. Fields that are absent or empty are not written; on reading they
may be absent, may come in any order but not twice, and unknown fields are passed over.
-/
namespace PluginBridge.Cbor

def writeField (name : String) (content : Bytes) : Bytes :=
  writeText name ++ content

/-- A field that may be absent, as how many fields and their bytes. -/
def optionalField (name : String) : Option Bytes → Nat × Bytes
  | some content => (1, writeField name content)
  | none => (0, [])

mutual

def writeSpec : WireSpec → Bytes
  | .node kind name typeExpression required nested fallback least most literal entries =>
    let name := optionalField "name" (name.map writeText)
    let typeExpression := optionalField "type_expr" (typeExpression.map writeText)
    let nested := optionalField "nested" (writeNested nested)
    let fallback := optionalField "fallback" (writeNested fallback)
    let literal := optionalField "literal" (literal.map writeValue)
    let count := entries.length
    let entries := optionalField "attrs"
      (if count = 0 then none else some (arrayHeader count ++ writeEntries entries))
    mapHeader (4 + name.1 + typeExpression.1 + nested.1 + fallback.1 + literal.1 + entries.1) ++
      writeField "kind" (writeNat kind.toNat) ++ name.2 ++ typeExpression.2 ++
      writeField "required" (writeBool required) ++ nested.2 ++ fallback.2 ++
      writeField "min_items" (writeNat least.toNat) ++
      writeField "max_items" (writeNat most.toNat) ++ literal.2 ++ entries.2

def writeNested : Option WireSpec → Option Bytes
  | none => none
  | some spec => some (writeSpec spec)

def writeEntries : List (String × WireSpec) → Bytes
  | [] => []
  | (name, spec) :: rest =>
    mapHeader 2 ++ writeField "key" (writeText name) ++ writeField "spec" (writeSpec spec) ++
      writeEntries rest

end

def writeDocument (document : WireDocument) : Bytes :=
  mapHeader 2 ++ writeField "version" (writeNat document.version.toNat) ++
    writeField "root" (arrayHeader document.root.length ++ writeEntries document.root)

/-- Reads the content of a field that has not been seen before. -/
def once {α : Type} (seen : Option α) (content : Reader Error α) : Reader Error (Option α) :=
  if seen.isSome then throw .unexpected else some <$> content

def seenField {α : Type} : Option α → Reader Error α
  | some a => pure a
  | none => throw .unexpected

structure SpecFields where
  kind : Option Nat := none
  name : Option (Option String) := none
  typeExpression : Option (Option String) := none
  required : Option Bool := none
  nested : Option (Option WireSpec) := none
  fallback : Option (Option WireSpec) := none
  least : Option Nat := none
  most : Option Nat := none
  literal : Option (Option Value) := none
  entries : Option (List (String × WireSpec)) := none

def SpecFields.node (fields : SpecFields) : WireSpec :=
  .node (UInt8.ofNat (fields.kind.getD 0)) (fields.name.getD none)
    (fields.typeExpression.getD none) (fields.required.getD false) (fields.nested.getD none)
    (fields.fallback.getD none) (UInt32.ofNat (fields.least.getD 0))
    (UInt32.ofNat (fields.most.getD 0)) (fields.literal.getD none) (fields.entries.getD [])

/-- Reads the content of the field of a node with the given name, or passes over that of another.
`nested` and `entries` read what is nested in the node. -/
def readSpecContent (depth : Nat) (nested : Reader Error WireSpec)
    (entries : Reader Error (List (String × WireSpec))) (fields : SpecFields) :
    Option String → Reader Error SpecFields
  | some "kind" => do
    let kind ← once fields.kind (readNat 255)
    pure { fields with kind := kind }
  | some "name" => do
    let name ← once fields.name (readOption readText)
    pure { fields with name := name }
  | some "type_expr" => do
    let expression ← once fields.typeExpression (readOption readText)
    pure { fields with typeExpression := expression }
  | some "required" => do
    let required ← once fields.required readBool
    pure { fields with required := required }
  | some "nested" => do
    let spec ← once fields.nested (readOption nested)
    pure { fields with nested := spec }
  | some "fallback" => do
    let spec ← once fields.fallback (readOption nested)
    pure { fields with fallback := spec }
  | some "min_items" => do
    let least ← once fields.least (readNat 0xffffffff)
    pure { fields with least := least }
  | some "max_items" => do
    let most ← once fields.most (readNat 0xffffffff)
    pure { fields with most := most }
  | some "literal" => do
    let literal ← once fields.literal (readOption (readValueWithin depth))
    pure { fields with literal := literal }
  | some "attrs" => do
    let entries ← once fields.entries entries
    pure { fields with entries := entries }
  | _ => do
    ignore depth
    pure fields

def readSpecField (depth : Nat) (nested : Reader Error WireSpec)
    (entries : Reader Error (List (String × WireSpec))) (fields : SpecFields) :
    Reader Error SpecFields := do
  let name ← readName
  readSpecContent depth nested entries fields (Text.ofUtf8? name)

def readFieldOfTwo {α β : Type} (depth : Nat) (first second : String) (a : Reader Error α)
    (b : Reader Error β) : Option α × Option β → Reader Error (Option α × Option β)
  | (a?, b?) => do
    let name ← readName
    if name = Text.utf8 first then do
      let a? ← once a? a
      pure (a?, b?)
    else if name = Text.utf8 second then do
      let b? ← once b? b
      pure (a?, b?)
    else do
      ignore depth
      pure (a?, b?)

/-- Reads a map with two fields, passing over all others. -/
def readTwoFields {α β : Type} (depth : Nat) (first second : String) (a : Reader Error α)
    (b : Reader Error β) : Reader Error (α × β) := do
  let count? ← openMap
  let (a?, b?) ← forItems count? (none, none) (readFieldOfTwo depth first second a b)
  let a ← seenField a?
  let b ← seenField b?
  pure (a, b)

mutual

def readSpecWithin : Nat → Reader Error WireSpec
  | 0 => do
    let _ ← openMap
    throw .tooDeep
  | depth + 1 => do
    let count? ← openMap
    let fields ← forItems count? ({} : SpecFields)
      (readSpecField depth (readSpecWithin depth) (readEntriesWithin depth))
    pure fields.node

def readEntriesWithin : Nat → Reader Error (List (String × WireSpec))
  | 0 => do
    match ← openArray with
    | none => pure []
    | some _ => throw .tooDeep
  | depth + 1 => do
    match ← openArray with
    | none => pure []
    | some count? => collect count? (readEntryWithin depth)

def readEntryWithin : Nat → Reader Error (String × WireSpec)
  | 0 => do
    let _ ← openMap
    throw .tooDeep
  | depth + 1 => readTwoFields depth "key" "spec" readText (readSpecWithin depth)

end

def readDocument : Reader Error WireDocument := do
  let (version, root) ← readTwoFields (depthLimit - 1) "version" "root" (readNat 0xffffffff)
    (readEntriesWithin (depthLimit - 1))
  pure ⟨UInt32.ofNat version, root⟩

def writeTyped (expression : String) (value : Value) : Bytes :=
  mapHeader 2 ++ writeField "ty" (writeText expression) ++ writeField "value" (writeValue value)

def readTyped : Reader Error (String × Value) :=
  readTwoFields (depthLimit - 1) "ty" "value" readText (readValueWithin (depthLimit - 1))

end PluginBridge.Cbor
