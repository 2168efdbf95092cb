import PluginBridge.Proofs.TypeExpression
import PluginBridge.Wire

/-! A specification message describes the specification it was made from. -/

namespace PluginBridge

namespace WireSpec

theorem parseTy_expression (ty : Ty) (ordered : ty.Ordered) :
    parseTy ty.expression = .ok ty := by
  simp only [parseTy, Ty.parse, Ty.expression, String.toList_ofList, Ty.parseAll_write ty ordered]
  rfl

theorem toSpec_ofSpec_object {entries : List (String × Spec)}
    (ascending : Fields.Ascending entries)
    (each : toEntries (ofEntries entries) = .ok entries) :
    toSpec (ofSpec (.object entries)) = .ok (.object entries) := by
  have kept : Fields.ofList entries = entries := Fields.ofList_ascending entries ascending
  simp only [ofSpec, toSpec, WireKind.number, WireKind.ofNumber?, each, kept, bind, Except.bind]

theorem toSpec_ofSpec_block {nested : Spec} (inner : toSpec (ofSpec nested) = .ok nested)
    (name : String) (required : Bool) :
    toSpec (ofSpec (.block name nested required)) = .ok (.block name nested required) := by
  simp only [ofSpec, toSpec, WireKind.number, WireKind.ofNumber?, need, toNested, inner, bind,
    Except.bind]

theorem toSpec_ofSpec_blockList {nested : Spec} (inner : toSpec (ofSpec nested) = .ok nested)
    (name : String) (least most : UInt32) :
    toSpec (ofSpec (.blockList name nested least most)) =
      .ok (.blockList name nested least most) := by
  simp only [ofSpec, toSpec, WireKind.number, WireKind.ofNumber?, need, toNested, inner, bind,
    Except.bind]

theorem toSpec_ofSpec_fallback {primary otherwise : Spec}
    (first : toSpec (ofSpec primary) = .ok primary)
    (second : toSpec (ofSpec otherwise) = .ok otherwise) :
    toSpec (ofSpec (.fallback primary otherwise)) = .ok (.fallback primary otherwise) := by
  simp only [ofSpec, toSpec, WireKind.number, WireKind.ofNumber?, toNested, first, second, bind,
    Except.bind]

mutual

theorem toSpec_ofSpec (spec : Spec) (ordered : spec.Ordered) : toSpec (ofSpec spec) = .ok spec := by
  cases spec with
  | object entries =>
    exact toSpec_ofSpec_object ordered.1 (toEntries_ofEntries entries ordered.2)
  | attr name ty required =>
    have ty' := parseTy_expression ty ordered
    simp only [ofSpec, toSpec, WireKind.number, WireKind.ofNumber?, need, ty', bind, Except.bind]
  | block name nested required =>
    exact toSpec_ofSpec_block (toSpec_ofSpec nested ordered) name required
  | blockList name nested least most =>
    exact toSpec_ofSpec_blockList (toSpec_ofSpec nested ordered) name least most
  | literal value => rfl
  | fallback primary otherwise =>
    exact toSpec_ofSpec_fallback (toSpec_ofSpec primary ordered.1) (toSpec_ofSpec otherwise ordered.2)
termination_by structural spec

theorem toEntries_ofEntries (entries : List (String × Spec))
    (ordered : Spec.OrderedEntries entries) : toEntries (ofEntries entries) = .ok entries := by
  cases entries with
  | nil => rfl
  | cons member rest =>
    obtain ⟨name, spec⟩ := member
    have first := toSpec_ofSpec spec ordered.1
    have later := toEntries_ofEntries rest ordered.2
    simp only [ofEntries, toEntries, first, later, bind, Except.bind]
termination_by structural entries

end

end WireSpec

theorem WireDocument.toSpec_ofSpec (spec : ObjectSpec) (ascending : Fields.Ascending spec)
    (ordered : Spec.OrderedEntries spec) : (WireDocument.ofSpec spec).toSpec = .ok spec := by
  have each := WireSpec.toEntries_ofEntries spec ordered
  have kept : Fields.ofList spec = spec := Fields.ofList_ascending spec ascending
  simp only [WireDocument.ofSpec, WireDocument.toSpec, if_true, each, kept, bind, Except.bind]

end PluginBridge
