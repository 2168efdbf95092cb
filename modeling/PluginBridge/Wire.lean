import PluginBridge.Spec
import PluginBridge.Ty.Parser

/-!
# Specification messages

A specification as a fixed message: every node has one shape with a numeric kind and optional
fields, and types are written as type expressions. Reading a message uses of each node only the
fields of its kind.
-/
namespace PluginBridge

inductive WireSpec where
  | node (kind : UInt8) (name typeExpression : Option String) (required : Bool)
      (nested fallback : Option WireSpec) (least most : UInt32) (literal : Option Value)
      (entries : List (String × WireSpec))
deriving Inhabited

structure WireDocument where
  version : UInt32
  root : List (String × WireSpec)
deriving Inhabited

inductive WireKind where
  | object
  | attr
  | block
  | blockList
  | literal
  | fallback
deriving DecidableEq, Inhabited

inductive WireField where
  | name
  | typeExpression
  | nested
  | fallback
  | literal
deriving DecidableEq, Inhabited

def WireField.text : WireField → String
  | name => "name"
  | typeExpression => "type_expr"
  | nested => "nested"
  | fallback => "fallback"
  | literal => "literal"

namespace WireKind

def number : WireKind → UInt8
  | object => 1
  | attr => 2
  | block => 3
  | blockList => 4
  | literal => 5
  | fallback => 6

def ofNumber? : UInt8 → Option WireKind
  | 1 => some object
  | 2 => some attr
  | 3 => some block
  | 4 => some blockList
  | 5 => some literal
  | 6 => some fallback
  | _ => none

def text : WireKind → String
  | object => "object"
  | attr => "attr"
  | block => "block"
  | blockList => "block_list"
  | literal => "literal"
  | fallback => "default"

end WireKind

inductive WireError where
  | unsupportedVersion (version : UInt32)
  | unknownKind (kind : UInt8)
  | missingField (kind : WireKind) (field : WireField)
  | typeExpression (error : Ty.ParseError)
deriving DecidableEq, Inhabited

def WireError.message : WireError → String
  | unsupportedVersion version => s!"malformed spec message: unsupported version {version}"
  | unknownKind kind => s!"malformed spec message: unknown spec kind {kind}"
  | missingField kind field =>
    s!"malformed spec message: {kind.text} spec without `{field.text}`"
  | typeExpression error => error.message

namespace WireSpec

mutual

def ofSpec : Spec → WireSpec
  | .object entries =>
    .node WireKind.object.number none none false none none 0 0 none (ofEntries entries)
  | .attr name ty required =>
    .node WireKind.attr.number (some name) (some ty.expression) required none none 0 0 none []
  | .block name nested required =>
    .node WireKind.block.number (some name) none required (some (ofSpec nested)) none 0 0 none []
  | .blockList name nested least most =>
    .node WireKind.blockList.number (some name) none false (some (ofSpec nested)) none least most
      none []
  | .literal value =>
    .node WireKind.literal.number none none false none none 0 0 (some value) []
  | .fallback primary otherwise =>
    .node WireKind.fallback.number none none false (some (ofSpec primary))
      (some (ofSpec otherwise)) 0 0 none []

def ofEntries : List (String × Spec) → List (String × WireSpec)
  | [] => []
  | (name, spec) :: rest => (name, ofSpec spec) :: ofEntries rest

end

def need {α : Type} (kind : WireKind) (field : WireField) : Option α → Except WireError α
  | some a => .ok a
  | none => .error (.missingField kind field)

def parseTy (expression : String) : Except WireError Ty :=
  (Ty.parse expression).mapError .typeExpression

mutual

def toSpec : WireSpec → Except WireError Spec
  | .node kind name typeExpression required nested fallback least most literal entries =>
    match WireKind.ofNumber? kind with
    | none => .error (.unknownKind kind)
    | some .object => do
      let entries ← toEntries entries
      .ok (.object (Fields.ofList entries))
    | some .attr => do
      let name ← need .attr .name name
      let expression ← need .attr .typeExpression typeExpression
      let ty ← parseTy expression
      .ok (.attr name ty required)
    | some .block => do
      let name ← need .block .name name
      let nested ← toNested .block .nested nested
      .ok (.block name nested required)
    | some .blockList => do
      let name ← need .blockList .name name
      let nested ← toNested .blockList .nested nested
      .ok (.blockList name nested least most)
    | some .literal => do
      let value ← need .literal .literal literal
      .ok (.literal value)
    | some .fallback => do
      let primary ← toNested .fallback .nested nested
      let otherwise ← toNested .fallback .fallback fallback
      .ok (.fallback primary otherwise)

def toNested (kind : WireKind) (field : WireField) : Option WireSpec → Except WireError Spec
  | some spec => toSpec spec
  | none => .error (.missingField kind field)

def toEntries : List (String × WireSpec) → Except WireError (List (String × Spec))
  | [] => .ok []
  | (name, wire) :: rest => do
    let spec ← toSpec wire
    let specs ← toEntries rest
    .ok ((name, spec) :: specs)

end

end WireSpec

namespace WireDocument

def currentVersion : UInt32 := 1

def ofSpec (spec : ObjectSpec) : WireDocument :=
  ⟨currentVersion, WireSpec.ofEntries spec⟩

/-- The specification a message describes; of two entries with one name the last counts. -/
def toSpec (document : WireDocument) : Except WireError ObjectSpec :=
  if document.version = currentVersion then do
    let entries ← WireSpec.toEntries document.root
    .ok (Fields.ofList entries)
  else
    .error (.unsupportedVersion document.version)

end WireDocument

end PluginBridge
