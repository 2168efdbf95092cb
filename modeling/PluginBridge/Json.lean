import PluginBridge.Binary64
import PluginBridge.Fields

/-!
# JSON

JSON values. A number is an integer or a double, as it was written; a value that was read has the
members of its objects in ascending order.
-/
namespace PluginBridge

inductive Json where
  | null
  | bool (truth : Bool)
  | integer (n : Int)
  | real (number : Binary64)
  | string (text : String)
  | array (items : List Json)
  | object (members : List (String × Json))
deriving Inhabited

namespace Json

/-- A finite number, and null for any other. -/
def ofNumber (number : Binary64) : Json :=
  if number.isFinite then real number else null

mutual

def sorted : Json → Json
  | array items => array (sortedItems items)
  | object members => object (Fields.ofList (sortedMembers members))
  | leaf => leaf

def sortedItems : List Json → List Json
  | [] => []
  | item :: rest => sorted item :: sortedItems rest

def sortedMembers : List (String × Json) → List (String × Json)
  | [] => []
  | (name, json) :: rest => (name, sorted json) :: sortedMembers rest

end

mutual

/-- Equal shapes with equal leaves, doubles compared by `agree`. -/
def equalBy (agree : Binary64 → Binary64 → Bool) : Json → Json → Bool
  | null, null => true
  | bool a, bool b => a == b
  | integer a, integer b => a == b
  | real a, real b => agree a b
  | string a, string b => a == b
  | array a, array b => equalItemsBy agree a b
  | object a, object b => equalMembersBy agree a b
  | _, _ => false

def equalItemsBy (agree : Binary64 → Binary64 → Bool) : List Json → List Json → Bool
  | [], [] => true
  | a :: as, b :: bs => equalBy agree a b && equalItemsBy agree as bs
  | _, _ => false

def equalMembersBy (agree : Binary64 → Binary64 → Bool) :
    List (String × Json) → List (String × Json) → Bool
  | [], [] => true
  | (key, a) :: as, (name, b) :: bs =>
    key == name && equalBy agree a b && equalMembersBy agree as bs
  | _, _ => false

end

/-- Equality with doubles as numbers; an integer equals no double. -/
def same (a b : Json) : Bool :=
  equalBy Binary64.same a b

end Json

end PluginBridge
