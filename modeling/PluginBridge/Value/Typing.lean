import PluginBridge.Ty
import PluginBridge.Value

/-!
# The type of a value

Each value has a type of its own, and conforms to types. A list, set or map whose items have
different types, or none, has items of type `any`; null has type `any` and conforms to every type.
-/
namespace PluginBridge.Value

def sharedTy : List Ty → Ty
  | [] => .any
  | ty :: rest => if rest.all (· == ty) then ty else .any

mutual

def ty : Value → Ty
  | null => .any
  | bool _ => .bool
  | number _ => .number
  | string _ => .string
  | list items => .list (sharedTy (tyItems items))
  | set items => .set (sharedTy (tyItems items))
  | tuple items => .tuple (tyItems items)
  | map members => .map (sharedTy ((tyMembers members).map (·.2)))
  | object members => .object (tyMembers members)

def tyItems : List Value → List Ty
  | [] => []
  | item :: rest => ty item :: tyItems rest

def tyMembers : List (String × Value) → List (String × Ty)
  | [] => []
  | (name, value) :: rest => (name, ty value) :: tyMembers rest

end

mutual

def conforms : Value → Ty → Bool
  | null, _ => true
  | _, .any => true
  | bool _, .bool => true
  | number _, .number => true
  | string _, .string => true
  | list items, .list item => conformItems items item
  | set items, .set item => conformItems items item
  | map members, .map item => conformMembers members item
  | tuple items, .tuple tys => conformPairwise items tys
  | object members, .object attributes =>
    members.length == attributes.length && conformAttributes members attributes
  | _, _ => false

def conformItems : List Value → Ty → Bool
  | [], _ => true
  | item :: rest, ty => conforms item ty && conformItems rest ty

def conformMembers : List (String × Value) → Ty → Bool
  | [], _ => true
  | (_, value) :: rest, ty => conforms value ty && conformMembers rest ty

/-- As many items as types, each conforming to its own. -/
def conformPairwise : List Value → List Ty → Bool
  | [], [] => true
  | item :: rest, ty :: tys => conforms item ty && conformPairwise rest tys
  | _, _ => false

/-- Every member has an attribute of its name and conforms to it. -/
def conformAttributes : List (String × Value) → List (String × Ty) → Bool
  | [], _ => true
  | (name, value) :: rest, attributes =>
    (match Fields.find? name attributes with
      | some ty => conforms value ty
      | none => false) &&
      conformAttributes rest attributes

end

end PluginBridge.Value
