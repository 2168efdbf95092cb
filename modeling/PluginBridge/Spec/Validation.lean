import PluginBridge.Spec
import PluginBridge.Ty.Printer
import PluginBridge.Value.Typing

/-!
# Validation

Whether a configuration body satisfies a specification. The first violation is reported: outputs
are visited in ascending order of their names, and the number of blocks is checked before the
blocks.
-/
namespace PluginBridge

inductive Violation where
  | missingAttribute (name : String)
  | typeMismatch (name : String) (expected found : Ty)
  | notAnObject (found : Ty)
  | blockCount (name : String) (count : Nat) (least most : UInt32)
deriving DecidableEq, Inhabited

def Violation.message : Violation → String
  | missingAttribute name => s!"missing required attribute `{name}`"
  | typeMismatch name expected found =>
    s!"attribute `{name}` must be {expected.expression}, found {found.expression}"
  | notAnObject found => s!"expected an object body, found {found.expression}"
  | blockCount name count least most =>
    s!"block `{name}` appears {count} times, expected between {least} and {most}"

namespace Spec

/-- An attribute or block that the body holds and that is not null. -/
def present? (name : String) (body : Fields Value) : Option Value :=
  (body.find? name).filter fun value => !value.isNull

/-- The blocks under a name: the items of a list or tuple, none if absent, else the one value. -/
def blocks (name : String) (body : Fields Value) : List Value :=
  match present? name body with
  | none => []
  | some (.list items) => items
  | some (.tuple items) => items
  | some single => [single]

def blockBody (block : Value) : Except Violation (Fields Value) :=
  match block.members? with
  | some members => .ok members
  | none => .error (.notAnObject block.ty)

def checkAttribute (name : String) (ty : Ty) (required : Bool) (body : Fields Value) :
    Except Violation Unit :=
  match present? name body with
  | none => if required then .error (.missingAttribute name) else .ok ()
  | some value => if value.conforms ty then .ok () else .error (.typeMismatch name ty value.ty)

def checkCount (name : String) (count : Nat) (least most : UInt32) : Except Violation Unit :=
  if count < least.toNat ∨ (0 < most.toNat ∧ most.toNat < count) then
    .error (.blockCount name count least most)
  else
    .ok ()

def forgiveMissing : Except Violation Unit → Except Violation Unit
  | .error (.missingAttribute _) => .ok ()
  | result => result

mutual

def check : Spec → Fields Value → Except Violation Unit
  | object entries, body => checkEntries entries body
  | attr name ty required, body => checkAttribute name ty required body
  | block name nested required, body =>
    match present? name body with
    | none => if required then .error (.missingAttribute name) else .ok ()
    | some value => do check nested (← blockBody value)
  | blockList name nested least most, body => do
    checkCount name (blocks name body).length least most
    (blocks name body).forM fun value => do check nested (← blockBody value)
  | literal _, _ => .ok ()
  | fallback primary _, body => forgiveMissing (check primary body)

def checkEntries : List (String × Spec) → Fields Value → Except Violation Unit
  | [], _ => .ok ()
  | (_, spec) :: rest, body => do
    check spec body
    checkEntries rest body

end

end Spec

def ObjectSpec.validate (spec : ObjectSpec) (body : Value) : Except Violation Unit := do
  Spec.checkEntries spec (← Spec.blockBody body)

end PluginBridge
