import PluginBridge.Spec
import PluginBridge.Value.Tagged

/-!
# Types and specifications as tagged JSON

Each alternative is an object of one member; an alternative with fields holds an object of them.
When read, fields may come in any order or as an array, and unknown fields are passed over.
-/
namespace PluginBridge

namespace Ty

mutual

def toTagged : Ty → Json
  | any => .string "Dynamic"
  | bool => .string "Bool"
  | number => .string "Number"
  | string => .string "String"
  | list item => Value.tag "List" (toTagged item)
  | set item => Value.tag "Set" (toTagged item)
  | map item => Value.tag "Map" (toTagged item)
  | tuple items => Value.tag "Tuple" (.array (toTaggedItems items))
  | object attributes => Value.tag "Object" (.object (toTaggedAttributes attributes))

def toTaggedItems : List Ty → List Json
  | [] => []
  | item :: rest => toTagged item :: toTaggedItems rest

def toTaggedAttributes : List (String × Ty) → List (String × Json)
  | [] => []
  | (name, ty) :: rest => (name, toTagged ty) :: toTaggedAttributes rest

end

def ofPlainName? : String → Option Ty
  | "Dynamic" => some any
  | "Bool" => some bool
  | "Number" => some number
  | "String" => some string
  | _ => none

mutual

def ofTagged? : Document → Option Ty
  | .string name => ofPlainName? name
  | .table [(kind, content)] =>
    match kind, content with
    | "List", content => (ofTagged? content).map list
    | "Set", content => (ofTagged? content).map set
    | "Map", content => (ofTagged? content).map map
    | "Tuple", .array items => (ofTaggedItems? items).map tuple
    | "Object", .table members =>
      (ofTaggedMembers? members).map fun members => object (Fields.ofList members)
    | name, .null => ofPlainName? name
    | _, _ => none
  | _ => none

def ofTaggedItems? : List Document → Option (List Ty)
  | [] => some []
  | item :: rest => do
    let ty ← ofTagged? item
    let tys ← ofTaggedItems? rest
    some (ty :: tys)

def ofTaggedMembers? : List (String × Document) → Option (List (String × Ty))
  | [] => some []
  | (name, document) :: rest => do
    let ty ← ofTagged? document
    let tys ← ofTaggedMembers? rest
    some ((name, ty) :: tys)

end

end Ty

namespace Spec

mutual

def toTagged : Spec → Json
  | object entries => Value.tag "Object" (.object [("entries", .object (toTaggedEntries entries))])
  | attr name ty required =>
    Value.tag "Attr"
      (.object [("name", .string name), ("ty", ty.toTagged), ("required", .bool required)])
  | block name nested required =>
    Value.tag "Block"
      (.object [("type_name", .string name), ("nested", toTagged nested),
        ("required", .bool required)])
  | blockList name nested least most =>
    Value.tag "BlockList"
      (.object [("type_name", .string name), ("nested", toTagged nested),
        ("min_items", .integer least.toNat), ("max_items", .integer most.toNat)])
  | literal value => Value.tag "Literal" value.toTagged
  | fallback primary otherwise =>
    Value.tag "Default"
      (.object [("primary", toTagged primary), ("default", toTagged otherwise)])

def toTaggedEntries : List (String × Spec) → List (String × Json)
  | [] => []
  | (name, spec) :: rest => (name, toTagged spec) :: toTaggedEntries rest

end

/-- The entries of a specification of an object: a structure with the one field `entries`. -/
def entries? (read? : Document → Option Spec) (document : Document) : Option ObjectSpec :=
  match document.fields? .json ["entries"] with
  | some [some (.table members)] => do
    let entries ← members.mapM fun (name, content) => (read? content).map (name, ·)
    some (Fields.ofList entries)
  | _ => none

/-- The specification that a document in tagged form stands for, nested at most so deep. -/
def ofTaggedWithin? : Nat → Document → Option Spec
  | 0, _ => none
  | depth + 1, .table [(kind, content)] =>
    match kind with
    | "Object" => (entries? (ofTaggedWithin? depth) content).map object
    | "Attr" => do
      match ← content.fields? .json ["name", "ty", "required"] with
      | [name, ty, required] => do
        let name ← Document.need? Document.string? name
        let ty ← Document.need? Ty.ofTagged? ty
        let required ← Document.need? Document.bool? required
        some (attr name ty required)
      | _ => none
    | "Block" => do
      match ← content.fields? .json ["type_name", "nested", "required"] with
      | [name, nested, required] => do
        let name ← Document.need? Document.string? name
        let nested ← Document.need? (ofTaggedWithin? depth) nested
        let required ← Document.need? Document.bool? required
        some (block name nested required)
      | _ => none
    | "BlockList" => do
      match ← content.fields? .json ["type_name", "nested", "min_items", "max_items"] with
      | [name, nested, least, most] => do
        let name ← Document.need? Document.string? name
        let nested ← Document.need? (ofTaggedWithin? depth) nested
        let least ← Document.need? Document.word32? least
        let most ← Document.need? Document.word32? most
        some (blockList name nested least most)
      | _ => none
    | "Literal" => (Value.ofTagged? content).map literal
    | "Default" => do
      match ← content.fields? .json ["primary", "default"] with
      | [primary, otherwise] => do
        let primary ← Document.need? (ofTaggedWithin? depth) primary
        let otherwise ← Document.need? (ofTaggedWithin? depth) otherwise
        some (fallback primary otherwise)
      | _ => none
    | _ => none
  | _, _ => none

end Spec

namespace ObjectSpec

def toTagged (spec : ObjectSpec) : Json :=
  .object [("entries", .object (Spec.toTaggedEntries spec))]

def ofTaggedText? (text : String) : Option ObjectSpec := do
  let document ← Document.ofJson? text
  Spec.entries? (Spec.ofTaggedWithin? Document.JsonText.depthLimit) document

end ObjectSpec

end PluginBridge
