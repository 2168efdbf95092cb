import PluginBridge.Spec.Validation

/-!
# Violations and their places

What a specification demands of a body, and every violation of it, not only the one that is
reported. A violation has a place: the steps from the specification to the part that is violated.
Places are ordered as one goes through the specification in depth, the outputs of an object in
ascending order of their names and the blocks of a list in their order.
-/
namespace PluginBridge.Spec

inductive Step where
  | output (name : String)
  | block
  | item (position : Nat)
  | primary
deriving DecidableEq

instance : LT Step where
  lt
    | .output left, .output right => left < right
    | .item left, .item right => left < right
    | _, _ => False

/-- The steps to a part. A place is before all places below it. -/
abbrev Place := List Step

/-- The body has a value of this name, other than null. -/
def Holds (name : String) (body : Fields Value) (value : Value) : Prop :=
  body.find? name = some value ∧ value ≠ .null

/-- The blocks that a body has under a name: the items of a list or a tuple, else the one value. -/
inductive HoldsBlocks (name : String) (body : Fields Value) : List Value → Prop where
  | absent (absent : ∀ value, ¬ Holds name body value) : HoldsBlocks name body []
  | list {items : List Value} (held : Holds name body (.list items)) : HoldsBlocks name body items
  | tuple {items : List Value} (held : Holds name body (.tuple items)) :
      HoldsBlocks name body items
  | single {value : Value} (held : Holds name body value) (unlisted : ∀ items, value ≠ .list items)
      (untupled : ∀ items, value ≠ .tuple items) : HoldsBlocks name body [value]

/-- So many blocks are allowed; a `most` of zero is no bound. -/
def Allowed (count : Nat) (least most : UInt32) : Prop :=
  least.toNat ≤ count ∧ (most = 0 ∨ count ≤ most.toNat)

/-- The specification and its parts have no fallback. -/
inductive Plain : Spec → Prop where
  | object {entries : List (String × Spec)} (each : ∀ entry ∈ entries, Plain entry.2) :
      Plain (.object entries)
  | attr (name : String) (ty : Ty) (required : Bool) : Plain (.attr name ty required)
  | block (name : String) {nested : Spec} (required : Bool) (plain : Plain nested) :
      Plain (.block name nested required)
  | blockList (name : String) {nested : Spec} (least most : UInt32) (plain : Plain nested) :
      Plain (.blockList name nested least most)
  | literal (value : Value) : Plain (.literal value)

/-- What a body must be like. There is no rule for fallbacks. -/
inductive Satisfies : Spec → Fields Value → Prop where
  | object {entries : List (String × Spec)} {body : Fields Value}
      (each : ∀ entry ∈ entries, Satisfies entry.2 body) : Satisfies (.object entries) body
  | attr {name : String} {ty : Ty} {required : Bool} {body : Fields Value}
      (needed : required = true → ∃ value, Holds name body value)
      (typed : ∀ value, Holds name body value → value.conforms ty = true) :
      Satisfies (.attr name ty required) body
  | block {name : String} {nested : Spec} {required : Bool} {body : Fields Value}
      (needed : required = true → ∃ value, Holds name body value)
      (shaped : ∀ value, Holds name body value → ∃ members, value.members? = some members)
      (inside : ∀ value members, Holds name body value → value.members? = some members →
        Satisfies nested members) :
      Satisfies (.block name nested required) body
  | blockList {name : String} {nested : Spec} {least most : UInt32} {body : Fields Value}
      {blocks : List Value} (held : HoldsBlocks name body blocks)
      (allowed : Allowed blocks.length least most)
      (shaped : ∀ block ∈ blocks, ∃ members, block.members? = some members)
      (inside : ∀ block ∈ blocks, ∀ members, block.members? = some members →
        Satisfies nested members) :
      Satisfies (.blockList name nested least most) body
  | literal (value : Value) (body : Fields Value) : Satisfies (.literal value) body

/-- A body violates a specification at a place. The violations of a fallback are those of what it
would fall back from; whether they are forgiven is not asked here. -/
inductive Violates : Spec → Fields Value → Place → Violation → Prop where
  | missing {name : String} {ty : Ty} {body : Fields Value}
      (absent : ∀ value, ¬ Holds name body value) :
      Violates (.attr name ty true) body [] (.missingAttribute name)
  | mistyped {name : String} {ty : Ty} {required : Bool} {body : Fields Value} {value : Value}
      (held : Holds name body value) (refused : value.conforms ty = false) :
      Violates (.attr name ty required) body [] (.typeMismatch name ty value.ty)
  | missingBlock {name : String} {nested : Spec} {body : Fields Value}
      (absent : ∀ value, ¬ Holds name body value) :
      Violates (.block name nested true) body [] (.missingAttribute name)
  | blockShape {name : String} {nested : Spec} {required : Bool} {body : Fields Value}
      {value : Value} (held : Holds name body value) (shapeless : value.members? = none) :
      Violates (.block name nested required) body [.block] (.notAnObject value.ty)
  | inBlock {name : String} {nested : Spec} {required : Bool} {body members : Fields Value}
      {value : Value} {place : Place} {violation : Violation} (held : Holds name body value)
      (shaped : value.members? = some members)
      (inside : Violates nested members place violation) :
      Violates (.block name nested required) body (.block :: place) violation
  | count {name : String} {nested : Spec} {least most : UInt32} {body : Fields Value}
      {blocks : List Value} (held : HoldsBlocks name body blocks)
      (refused : ¬ Allowed blocks.length least most) :
      Violates (.blockList name nested least most) body []
        (.blockCount name blocks.length least most)
  | itemShape {name : String} {nested : Spec} {least most : UInt32} {body : Fields Value}
      {blocks : List Value} {position : Nat} {value : Value} (held : HoldsBlocks name body blocks)
      (found : blocks[position]? = some value) (shapeless : value.members? = none) :
      Violates (.blockList name nested least most) body [.item position] (.notAnObject value.ty)
  | inItem {name : String} {nested : Spec} {least most : UInt32} {body members : Fields Value}
      {blocks : List Value} {position : Nat} {value : Value} {place : Place}
      {violation : Violation} (held : HoldsBlocks name body blocks)
      (found : blocks[position]? = some value) (shaped : value.members? = some members)
      (inside : Violates nested members place violation) :
      Violates (.blockList name nested least most) body (.item position :: place) violation
  | inEntry {entries : List (String × Spec)} {body : Fields Value} {name : String} {spec : Spec}
      {place : Place} {violation : Violation} (member : (name, spec) ∈ entries)
      (inside : Violates spec body place violation) :
      Violates (.object entries) body (.output name :: place) violation
  | inPrimary {primary otherwise : Spec} {body : Fields Value} {place : Place}
      {violation : Violation} (inside : Violates primary body place violation) :
      Violates (.fallback primary otherwise) body (.primary :: place) violation

def First (violated : Place → Violation → Prop) (place : Place) (violation : Violation) : Prop :=
  violated place violation ∧
    ∀ other found, violated other found → (other = place ∧ found = violation) ∨ place < other

/-- A missing attribute at one place excuses what is at another: the innermost fallback around the
missing attribute is also around the other place, which is not before. -/
def Excuses (missing place : Place) : Prop :=
  ∃ around inner behind, missing = around ++ .primary :: inner ∧ .primary ∉ inner ∧
    place = around ++ .primary :: behind ∧ (behind = inner ∨ inner < behind)

/-- A violation that no missing attribute excuses. -/
def Unexcused (violated : Place → Violation → Prop) (place : Place) (violation : Violation) :
    Prop :=
  violated place violation ∧
    ∀ missing name, violated missing (.missingAttribute name) → ¬ Excuses missing place

end PluginBridge.Spec
