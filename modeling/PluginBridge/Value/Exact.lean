import PluginBridge.Bytes.Hex
import PluginBridge.Json
import PluginBridge.Value

/-!
# Values in exact JSON

A view of values that shows the kind of every container and every bit of a number, in hexadecimal
digits. All NaNs look the same.
-/
namespace PluginBridge

def Binary64.exact (number : Binary64) : String :=
  if number.isNaN then "nan" else (Bytes.bigEndian 8 number.bits.toNat).hex

namespace Value

mutual

def toExact : Value → Json
  | null => .null
  | bool truth => .bool truth
  | number x => .object [("num", .string x.exact)]
  | string text => .string text
  | list items => .object [("list", .array (toExactItems items))]
  | set items => .object [("set", .array (toExactItems items))]
  | tuple items => .object [("tuple", .array (toExactItems items))]
  | map members => .object [("map", .object (toExactMembers members))]
  | object members => .object [("object", .object (toExactMembers members))]

def toExactItems : List Value → List Json
  | [] => []
  | item :: rest => toExact item :: toExactItems rest

def toExactMembers : List (String × Value) → List (String × Json)
  | [] => []
  | (name, value) :: rest => (name, toExact value) :: toExactMembers rest

end

end Value

end PluginBridge
