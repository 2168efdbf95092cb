import PluginBridge.Json
import PluginBridge.Value

/-!
# Values and JSON

Written as JSON a value loses which kind of container it was and its non-finite numbers. Read from
JSON, arrays become tuples and objects become objects.
-/
namespace PluginBridge.Value

mutual

def toJson : Value → Json
  | null => .null
  | bool truth => .bool truth
  | number x => .ofNumber x
  | string text => .string text
  | list items => .array (toJsonItems items)
  | set items => .array (toJsonItems items)
  | tuple items => .array (toJsonItems items)
  | map members => .object (toJsonMembers members)
  | object members => .object (toJsonMembers members)

def toJsonItems : List Value → List Json
  | [] => []
  | item :: rest => toJson item :: toJsonItems rest

def toJsonMembers : List (String × Value) → List (String × Json)
  | [] => []
  | (name, value) :: rest => (name, toJson value) :: toJsonMembers rest

end

mutual

def ofJson : Json → Value
  | .null => null
  | .bool truth => bool truth
  | .integer n => number (.ofInt n)
  | .real x => number x
  | .string text => string text
  | .array items => tuple (ofJsonItems items)
  | .object members => object (ofJsonMembers members)

def ofJsonItems : List Json → List Value
  | [] => []
  | item :: rest => ofJson item :: ofJsonItems rest

def ofJsonMembers : List (String × Json) → List (String × Value)
  | [] => []
  | (name, json) :: rest => (name, ofJson json) :: ofJsonMembers rest

end

mutual

/-- What a value becomes when it is written as JSON and read again: lists and sets are tuples, maps
are objects, and numbers that are not finite are null. -/
def normalForm : Value → Value
  | null => null
  | bool truth => bool truth
  | number x => if x.isFinite then number x else null
  | string text => string text
  | list items => tuple (normalFormItems items)
  | set items => tuple (normalFormItems items)
  | tuple items => tuple (normalFormItems items)
  | map members => object (normalFormMembers members)
  | object members => object (normalFormMembers members)

def normalFormItems : List Value → List Value
  | [] => []
  | item :: rest => normalForm item :: normalFormItems rest

def normalFormMembers : List (String × Value) → List (String × Value)
  | [] => []
  | (name, value) :: rest => (name, normalForm value) :: normalFormMembers rest

end

/-- A value of the kinds that JSON tells apart, all through. -/
inductive Plain : Value → Prop where
  | null : Plain null
  | bool (truth : Bool) : Plain (bool truth)
  | number {x : Binary64} (finite : x.isFinite = true) : Plain (number x)
  | string (text : String) : Plain (string text)
  | tuple {items : List Value} (each : ∀ item ∈ items, Plain item) : Plain (tuple items)
  | object {members : List (String × Value)} (each : ∀ member ∈ members, Plain member.2) :
      Plain (object members)

end PluginBridge.Value
