import PluginBridge.Value.Exact
import PluginBridge.Wire

/-!
# Specification messages in exact JSON

A view of messages that shows the fields of every node, those that are not set left out.
-/
namespace PluginBridge

namespace WireSpec

def fieldIfSet (name : String) : Option Json → List (String × Json)
  | some json => [(name, json)]
  | none => []

mutual

def toExact : WireSpec → Json
  | node kind name expression required nested fallback least most literal entries =>
    .object ([("kind", .integer kind.toNat), ("required", .bool required),
        ("min_items", .integer least.toNat), ("max_items", .integer most.toNat)] ++
      fieldIfSet "name" (name.map .string) ++
      fieldIfSet "type_expr" (expression.map .string) ++
      fieldIfSet "nested" (toExactPart nested) ++
      fieldIfSet "fallback" (toExactPart fallback) ++
      fieldIfSet "literal" (literal.map Value.toExact) ++
      if entries.isEmpty then [] else [("attrs", .array (toExactEntries entries))])

def toExactPart : Option WireSpec → Option Json
  | none => none
  | some spec => some (toExact spec)

def toExactEntries : List (String × WireSpec) → List Json
  | [] => []
  | (name, spec) :: rest =>
    .object [("key", .string name), ("spec", toExact spec)] :: toExactEntries rest

end

end WireSpec

def WireDocument.toExact (document : WireDocument) : Json :=
  .object [("version", .integer document.version.toNat),
    ("root", .array (WireSpec.toExactEntries document.root))]

end PluginBridge
