import PluginBridge.Binary64
import PluginBridge.Fields

/-!
# Values

The dynamically typed values that a host and a plugin exchange. Lists, sets and tuples keep the
order and the repetitions of their items; maps and objects hold members in ascending order of
their names.
-/
namespace PluginBridge

inductive Value where
  | null
  | bool (truth : Bool)
  | number (number : Binary64)
  | string (text : String)
  | list (items : List Value)
  | set (items : List Value)
  | tuple (items : List Value)
  | map (members : List (String × Value))
  | object (members : List (String × Value))
deriving Inhabited

namespace Value

def isNull : Value → Bool
  | null => true
  | _ => false

def text? : Value → Option String
  | string text => some text
  | _ => none

def members? : Value → Option (Fields Value)
  | map members => some members
  | object members => some members
  | _ => none

def get? (value : Value) (name : String) : Option Value :=
  match value with
  | map members => Fields.find? name members
  | object members => Fields.find? name members
  | _ => none

/-- An object of the given members; the last of those with one name counts. -/
def ofMembers (members : List (String × Value)) : Value :=
  object (Fields.ofList members)

mutual

/-- Every map and object inside holds its members in ascending order. -/
def Ordered : Value → Prop
  | null => True
  | bool _ => True
  | number _ => True
  | string _ => True
  | list items => OrderedItems items
  | set items => OrderedItems items
  | tuple items => OrderedItems items
  | map members => Fields.Ascending members ∧ OrderedMembers members
  | object members => Fields.Ascending members ∧ OrderedMembers members

def OrderedItems : List Value → Prop
  | [] => True
  | item :: rest => Ordered item ∧ OrderedItems rest

def OrderedMembers : List (String × Value) → Prop
  | [] => True
  | (_, value) :: rest => Ordered value ∧ OrderedMembers rest

end

mutual

/-- Equal shapes with equal leaves, numbers compared by `agree`. -/
def equalBy (agree : Binary64 → Binary64 → Bool) : Value → Value → Bool
  | null, null => true
  | bool a, bool b => a == b
  | number a, number b => agree a b
  | string a, string b => a == b
  | list a, list b => equalItemsBy agree a b
  | set a, set b => equalItemsBy agree a b
  | tuple a, tuple b => equalItemsBy agree a b
  | map a, map b => equalMembersBy agree a b
  | object a, object b => equalMembersBy agree a b
  | _, _ => false

def equalItemsBy (agree : Binary64 → Binary64 → Bool) : List Value → List Value → Bool
  | [], [] => true
  | a :: as, b :: bs => equalBy agree a b && equalItemsBy agree as bs
  | _, _ => false

def equalMembersBy (agree : Binary64 → Binary64 → Bool) :
    List (String × Value) → List (String × Value) → Bool
  | [], [] => true
  | (key, a) :: as, (name, b) :: bs =>
    key == name && equalBy agree a b && equalMembersBy agree as bs
  | _, _ => false

end

/-- Equality with numbers as numbers: a NaN equals nothing, the two zeros are equal. -/
def same (a b : Value) : Bool :=
  equalBy Binary64.same a b

end Value

end PluginBridge
