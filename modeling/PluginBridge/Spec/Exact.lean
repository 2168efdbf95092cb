import PluginBridge.Spec
import PluginBridge.Ty.Printer
import PluginBridge.Value.Exact

/-!
# Specifications in exact JSON

A view of specifications with types as expressions and literals exact.
-/
namespace PluginBridge

namespace Spec

mutual

def toExact : Spec → Json
  | object entries => .object [("object", .object (toExactEntries entries))]
  | attr name ty required =>
    .object [("attr", .object [("name", .string name), ("type", .string ty.expression),
      ("required", .bool required)])]
  | block name nested required =>
    .object [("block", .object [("type_name", .string name), ("nested", toExact nested),
      ("required", .bool required)])]
  | blockList name nested least most =>
    .object [("block_list", .object [("type_name", .string name), ("nested", toExact nested),
      ("min", .integer least.toNat), ("max", .integer most.toNat)])]
  | literal value => .object [("literal", value.toExact)]
  | fallback primary otherwise =>
    .object [("default",
      .object [("primary", toExact primary), ("default", toExact otherwise)])]

def toExactEntries : List (String × Spec) → List (String × Json)
  | [] => []
  | (name, spec) :: rest => (name, toExact spec) :: toExactEntries rest

end

end Spec

def ObjectSpec.toExact (spec : ObjectSpec) : Json :=
  .object (Spec.toExactEntries spec)

end PluginBridge
