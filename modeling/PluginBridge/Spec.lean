import PluginBridge.Ty
import PluginBridge.Value

/-!
# Specifications

A declarative description of a configuration body: for each output name, which attribute, block or
list of blocks of the body it is made from.
-/
namespace PluginBridge

/-- How one output is made from a configuration body. A list of blocks may hold `most` blocks, any
number if `most` is zero. -/
inductive Spec where
  | object (entries : List (String × Spec))
  | attr (name : String) (ty : Ty) (required : Bool)
  | block (name : String) (nested : Spec) (required : Bool)
  | blockList (name : String) (nested : Spec) (least most : UInt32)
  | literal (value : Value)
  | fallback (primary otherwise : Spec)
deriving Inhabited

abbrev ObjectSpec := Fields Spec

namespace ObjectSpec

/-- Adds an attribute whose output has the attribute's name. -/
def withAttribute (spec : ObjectSpec) (name : String) (ty : Ty) (required : Bool) : ObjectSpec :=
  Fields.insert name (.attr name ty required) spec

end ObjectSpec

namespace Spec

mutual

/-- Every specification of an object, every type and every literal inside is in order. -/
def Ordered : Spec → Prop
  | object entries => Fields.Ascending entries ∧ OrderedEntries entries
  | attr _ ty _ => ty.Ordered
  | block _ nested _ => Ordered nested
  | blockList _ nested _ _ => Ordered nested
  | literal value => value.Ordered
  | fallback primary otherwise => Ordered primary ∧ Ordered otherwise

def OrderedEntries : List (String × Spec) → Prop
  | [] => True
  | (_, spec) :: rest => Ordered spec ∧ OrderedEntries rest

end

mutual

/-- Equal shapes with equal leaves, numbers in literals compared by `agree`. -/
def equalBy (agree : Binary64 → Binary64 → Bool) : Spec → Spec → Bool
  | object a, object b => equalEntriesBy agree a b
  | attr a ty need, attr b tz want => a == b && ty == tz && need == want
  | block a nested need, block b nestedB want =>
    a == b && equalBy agree nested nestedB && need == want
  | blockList a nested least most, blockList b nestedB leastB mostB =>
    a == b && equalBy agree nested nestedB && least == leastB && most == mostB
  | literal a, literal b => a.equalBy agree b
  | fallback a b, fallback c d => equalBy agree a c && equalBy agree b d
  | _, _ => false

def equalEntriesBy (agree : Binary64 → Binary64 → Bool) :
    List (String × Spec) → List (String × Spec) → Bool
  | [], [] => true
  | (key, a) :: as, (name, b) :: bs =>
    key == name && equalBy agree a b && equalEntriesBy agree as bs
  | _, _ => false

end

end Spec

def ObjectSpec.same (a b : ObjectSpec) : Bool :=
  Spec.equalEntriesBy Binary64.same a b

end PluginBridge
