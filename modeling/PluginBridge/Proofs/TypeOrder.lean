import PluginBridge.Proofs.TypeGrammar

/-! Types that are read have the attributes of their objects in ascending order, however these are
written. -/

namespace PluginBridge

namespace Ty

theorem orderedItems_iff {items : List Ty} : OrderedItems items ↔ ∀ item ∈ items, item.Ordered := by
  induction items with
  | nil => simp [OrderedItems]
  | cons item rest ih => simp [OrderedItems, ih]

theorem orderedAttributes_iff {attributes : List (String × Ty)} :
    OrderedAttributes attributes ↔ ∀ member ∈ attributes, member.2.Ordered := by
  induction attributes with
  | nil => simp [OrderedAttributes]
  | cons member rest ih => simp [OrderedAttributes, ih]

/-- A type that tokens stand for is in order. -/
theorem Denotes.ordered {tokens : List Token} {ty : Ty} (denotes : Denotes tokens ty) :
    ty.Ordered := by
  induction denotes with
  | any | bool | number | string => trivial
  | list _ ih | set _ ih | map _ ih => exact ih
  | @tuple parts _ ih =>
    refine orderedItems_iff.mpr fun item inside => ?_
    obtain ⟨part, within, rfl⟩ := List.mem_map.mp inside
    exact ih part within
  | @object attributes members _ _ ascending last ih =>
    refine ⟨ascending, orderedAttributes_iff.mpr fun member inside => ?_⟩
    rw [Fields.eq_ofList ascending last] at inside
    obtain ⟨attr, within, rfl⟩ := List.mem_map.mp (Fields.mem_of_mem_ofList inside)
    exact ih attr within

/-- What a type expression stands for is in order. -/
theorem ordered_parse {text : String} {ty : Ty} (parsed : parse text = .ok ty) : ty.Ordered := by
  obtain ⟨tokens, rest, denotes, _⟩ := parseAll_iff.mp (parse_eq_ok_iff.mp parsed)
  exact denotes.ordered

end Ty

end PluginBridge
