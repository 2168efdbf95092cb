import Mathlib.Data.List.Forall2
import Mathlib.Order.Defs.PartialOrder
import PluginBridge.Proofs.RoundTrip
import PluginBridge.Ty.Generality

/-! The type of a value is sound for conformance: a value conforms to its own type and to every more
general one, and what conforms to a type conforms to all that are more general. -/

namespace PluginBridge

/-! ## Types in order -/

namespace Ty

theorem forall₂_through {α β γ : Type} {R : α → β → Prop} {S : β → γ → Prop} {T : α → γ → Prop}
    (through : ∀ a b c, R a b → S b c → T a c) {as : List α} {bs : List β} {cs : List γ}
    (first : as.Forall₂ R bs) (later : bs.Forall₂ S cs) : as.Forall₂ T cs := by
  induction first generalizing cs with
  | nil =>
    cases later
    exact .nil
  | cons here _ ih =>
    cases later with
    | cons there rest => exact .cons (through _ _ _ here there) (ih rest)

/-- Attributes with the same names, part by part. -/
theorem forall₂_attributes_iff {R : Ty → Ty → Prop} {as bs : List (String × Ty)} :
    as.Forall₂ (fun a b => a.1 = b.1 ∧ R a.2 b.2) bs ↔
      Fields.names as = Fields.names bs ∧ ∀ pair ∈ as.zip bs, R pair.1.2 pair.2.2 := by
  induction as generalizing bs with
  | nil => cases bs <;> simp [Fields.names]
  | cons a as ih =>
    cases bs with
    | nil => simp [Fields.names]
    | cons b bs =>
      rw [List.forall₂_cons, ih]
      simp only [Fields.names, List.map_cons, List.cons.injEq, List.zip_cons_cons,
        List.forall_mem_cons]
      tauto

theorem forall₂_items_iff {R : Ty → Ty → Prop} {as bs : List Ty} :
    as.Forall₂ R bs ↔ as.length = bs.length ∧ ∀ pair ∈ as.zip bs, R pair.1 pair.2 := by
  rw [List.forall₂_iff_zip, Prod.forall]

theorem le_tuple {as bs : List Ty} (items : as.Forall₂ Le bs) : Le (tuple as) (tuple bs) :=
  let ⟨long, each⟩ := forall₂_items_iff.mp items
  .tuple long each

theorem le_object {as bs : List (String × Ty)}
    (attributes : as.Forall₂ (fun a b => a.1 = b.1 ∧ Le a.2 b.2) bs) :
    Le (object as) (object bs) :=
  let ⟨named, each⟩ := forall₂_attributes_iff.mp attributes
  .object named each

theorem Le.trans {a b c : Ty} (first : Le a b) (later : Le b c) : Le a c := by
  induction first generalizing c with
  | refl => exact later
  | any a =>
    cases later with
    | refl | any => exact .any a
  | list _ ih =>
    cases later with
    | refl => exact .list (ih (.refl _))
    | any => exact .any _
    | list item => exact .list (ih item)
  | set _ ih =>
    cases later with
    | refl => exact .set (ih (.refl _))
    | any => exact .any _
    | set item => exact .set (ih item)
  | map _ ih =>
    cases later with
    | refl => exact .map (ih (.refl _))
    | any => exact .any _
    | map item => exact .map (ih item)
  | @tuple as bs long each ih =>
    cases later with
    | refl => exact .tuple long each
    | any => exact .any _
    | tuple again beyond =>
      have step : as.Forall₂ (fun a b => ∀ {c}, Le b c → Le a c) bs :=
        forall₂_items_iff.mpr ⟨long, ih⟩
      have rest := forall₂_items_iff.mpr ⟨again, beyond⟩
      exact le_tuple (forall₂_through (fun _ _ _ through item => through item) step rest)
  | @object as bs named each ih =>
    cases later with
    | refl => exact .object named each
    | any => exact .any _
    | object again beyond =>
      have step : as.Forall₂ (fun a b => a.1 = b.1 ∧ ∀ {c}, Le b.2 c → Le a.2 c) bs :=
        forall₂_attributes_iff (R := fun a b => ∀ {c}, Le b c → Le a c) |>.mpr ⟨named, ih⟩
      have rest := forall₂_attributes_iff.mpr ⟨again, beyond⟩
      refine le_object (forall₂_through ?_ step rest)
      exact fun _ _ _ through item => ⟨through.1.trans item.1, through.2 item.2⟩

theorem Le.antisymm {a b : Ty} (up : Le a b) (down : Le b a) : a = b := by
  induction up with
  | refl => rfl
  | any => cases down <;> rfl
  | list _ ih =>
    cases down with
    | refl => rfl
    | list item => rw [ih item]
  | set _ ih =>
    cases down with
    | refl => rfl
    | set item => rw [ih item]
  | map _ ih =>
    cases down with
    | refl => rfl
    | map item => rw [ih item]
  | @tuple as bs long _ ih =>
    cases down with
    | refl => rfl
    | tuple again back =>
      have step : as.Forall₂ (fun a b => Le b a → a = b) bs := forall₂_items_iff.mpr ⟨long, ih⟩
      have rest : as.Forall₂ (fun a b => Le b a) bs :=
        (forall₂_items_iff.mpr ⟨again, back⟩).flip
      have same : as.Forall₂ (· = ·) bs := step.mp (fun _ _ equal below => equal below) rest
      rw [List.forall₂_eq_eq_eq] at same
      rw [same]
  | @object as bs named _ ih =>
    cases down with
    | refl => rfl
    | object again back =>
      have step : as.Forall₂ (fun a b => a.1 = b.1 ∧ (Le b.2 a.2 → a.2 = b.2)) bs :=
        forall₂_attributes_iff (R := fun a b => Le b a → a = b) |>.mpr ⟨named, ih⟩
      have rest : as.Forall₂ (fun a b => b.1 = a.1 ∧ Le b.2 a.2) bs :=
        (forall₂_attributes_iff.mpr ⟨again, back⟩).flip
      have same : as.Forall₂ (· = ·) bs :=
        step.mp (fun _ _ equal below => Prod.ext equal.1 (equal.2 below.2)) rest
      rw [List.forall₂_eq_eq_eq] at same
      rw [same]

instance : PartialOrder Ty where
  le_refl := Le.refl
  le_trans _ _ _ := Le.trans
  le_antisymm _ _ := Le.antisymm

end Ty

/-- Of as many members on both sides, if each of one side is found on the other, then each of the
other is found on the one. -/
theorem Fields.found_of_found {α β : Type} {R : α → β → Prop} {as : Fields α} {bs : Fields β}
    (ascending : as.Ascending) (sorted : bs.Ascending) (long : as.length = bs.length)
    (each : ∀ a ∈ as, ∃ b, bs.find? a.1 = some b ∧ R a.2 b) :
    ∀ b ∈ bs, ∃ a, as.find? b.1 = some a ∧ R a b.2 := by
  have within : names as ⊆ names bs := by
    intro name inside
    obtain ⟨a, among, rfl⟩ := List.mem_map.mp inside
    obtain ⟨b, found, -⟩ := each a among
    exact List.mem_map_of_mem ((find?_eq_some_iff sorted).mp found)
  have once : (names as).Nodup :=
    List.pairwise_map.mpr (ascending.imp fun below => String.ne_of_lt below)
  -- As many names on both sides and each once: those of one side are those of the other.
  have same : (names as).Perm (names bs) :=
    (List.subperm_of_subset once within).perm_of_length_le (by simp [names, long])
  rintro ⟨name, b⟩ among
  obtain ⟨⟨key, a⟩, inside, rfl⟩ :=
    List.mem_map.mp (same.mem_iff.mpr (List.mem_map_of_mem (f := Prod.fst) among))
  obtain ⟨other, found, related⟩ := each (key, a) inside
  have itself := (find?_eq_some_iff sorted).mpr among
  obtain rfl := Option.some.inj (found.symm.trans itself)
  exact ⟨a, (find?_eq_some_iff ascending).mpr inside, related⟩

/-! ## What conforms -/

namespace Value

@[simp] theorem conforms_null (ty : Ty) : null.conforms ty = true := by
  simp [conforms]

@[simp] theorem conforms_any (value : Value) : value.conforms .any = true := by
  cases value <;> simp [conforms]

theorem conformItems_iff {items : List Value} {ty : Ty} :
    conformItems items ty = true ↔ ∀ item ∈ items, item.conforms ty = true := by
  induction items with
  | nil => simp [conformItems]
  | cons item rest ih => simp [conformItems, ih]

theorem conformMembers_iff {members : List (String × Value)} {ty : Ty} :
    conformMembers members ty = true ↔ ∀ member ∈ members, member.2.conforms ty = true := by
  induction members with
  | nil => simp [conformMembers]
  | cons member rest ih => simp [conformMembers, ih]

theorem conformPairwise_iff {items : List Value} {tys : List Ty} :
    conformPairwise items tys = true ↔
      items.Forall₂ (fun item ty => item.conforms ty = true) tys := by
  induction items generalizing tys with
  | nil => cases tys <;> simp [conformPairwise]
  | cons item rest ih => cases tys <;> simp [conformPairwise, ih]

theorem conformAttributes_iff {members : List (String × Value)} {attributes : Fields Ty} :
    conformAttributes members attributes = true ↔ ∀ member ∈ members,
      ∃ ty, attributes.find? member.1 = some ty ∧ member.2.conforms ty = true := by
  induction members with
  | nil => simp [conformAttributes]
  | cons member rest ih =>
    obtain ⟨name, value⟩ := member
    rw [List.forall_mem_cons, ← ih, conformAttributes, Bool.and_eq_true]
    refine and_congr_left fun _ => ?_
    cases attributes.find? name <;> simp

theorem find?_of_attributes {R : Ty → Ty → Prop} {as bs : Fields Ty}
    (related : as.Forall₂ (fun a b => a.1 = b.1 ∧ R a.2 b.2) bs) {name : String} {a : Ty}
    (found : as.find? name = some a) : ∃ b, bs.find? name = some b ∧ R a b := by
  induction related with
  | nil => simp [Fields.find?] at found
  | @cons one other as bs first _ ih =>
    obtain ⟨key, ty⟩ := one
    obtain ⟨again, wider⟩ := other
    obtain ⟨rfl, above⟩ := first
    rw [Fields.find?] at found ⊢
    by_cases here : key = name
    · rw [if_pos here] at found ⊢
      cases found
      exact ⟨wider, rfl, above⟩
    · rw [if_neg here] at found ⊢
      exact ih found

/-- Whatever conforms to the one type conforms to the other. -/
def Carries (narrow wide : Ty) : Prop :=
  ∀ value : Value, value.conforms narrow = true → value.conforms wide = true

/-- What conforms to a type conforms to every more general one. -/
theorem carries_of_le {narrow wide : Ty} (below : narrow ≤ wide) : Carries narrow wide := by
  -- A value of another kind conforms to neither of the two, and null to every type.
  induction below with
  | refl => exact fun _ fits => fits
  | any => exact fun value _ => conforms_any value
  | list _ ih =>
    intro value fits
    cases value with
    | null => exact conforms_null _
    | list items =>
      rw [conforms, conformItems_iff] at fits ⊢
      exact fun item inside => ih item (fits item inside)
    | _ => simp [conforms] at fits
  | set _ ih =>
    intro value fits
    cases value with
    | null => exact conforms_null _
    | set items =>
      rw [conforms, conformItems_iff] at fits ⊢
      exact fun item inside => ih item (fits item inside)
    | _ => simp [conforms] at fits
  | map _ ih =>
    intro value fits
    cases value with
    | null => exact conforms_null _
    | map members =>
      rw [conforms, conformMembers_iff] at fits ⊢
      exact fun member inside => ih member.2 (fits member inside)
    | _ => simp [conforms] at fits
  | tuple long _ ih =>
    intro value fits
    have step := Ty.forall₂_items_iff (R := Carries) |>.mpr ⟨long, ih⟩
    cases value with
    | null => exact conforms_null _
    | tuple items =>
      rw [conforms, conformPairwise_iff] at fits ⊢
      exact Ty.forall₂_through (fun item _ _ fits onward => onward item fits) fits step
    | _ => simp [conforms] at fits
  | object named _ ih =>
    intro value fits
    have step := Ty.forall₂_attributes_iff (R := Carries) |>.mpr ⟨named, ih⟩
    cases value with
    | null => exact conforms_null _
    | object members =>
      rw [conforms, Bool.and_eq_true, conformAttributes_iff, beq_iff_eq] at fits ⊢
      refine ⟨fits.1.trans step.length_eq, fun member inside => ?_⟩
      obtain ⟨narrow, found, conforming⟩ := fits.2 member inside
      obtain ⟨wide, again, onward⟩ := find?_of_attributes step found
      exact ⟨wide, again, onward member.2 conforming⟩
    | _ => simp [conforms] at fits

/-- An object conforms if it has as many members as there are attributes, and each attribute is
found among them. -/
theorem conforms_object_iff {members : Fields Value} {attributes : Fields Ty}
    (ascending : members.Ascending) (sorted : attributes.Ascending) :
    (object members).conforms (.object attributes) = true ↔
      members.length = attributes.length ∧ ∀ wanted ∈ attributes,
        ∃ value, members.find? wanted.1 = some value ∧ value.conforms wanted.2 = true := by
  rw [conforms, Bool.and_eq_true, conformAttributes_iff, beq_iff_eq]
  refine and_congr_right fun long => ⟨?_, ?_⟩
  · exact Fields.found_of_found ascending sorted long
      (R := fun value ty => value.conforms ty = true)
  · exact Fields.found_of_found sorted ascending long.symm
      (R := fun ty value => value.conforms ty = true)

/-! ## The types of values -/

/-- The shared type of items is at least as general as the type of each. -/
theorem le_sharedTy {tys : List Ty} {ty : Ty} (inside : ty ∈ tys) : ty ≤ sharedTy tys := by
  cases tys with
  | nil => cases inside
  | cons first rest =>
    rw [sharedTy]
    split
    next same =>
      rcases List.mem_cons.mp inside with rfl | later
      · exact le_refl ty
      · have equal := beq_iff_eq.mp (List.all_eq_true.mp same ty later)
        exact equal.le
    next => exact .any ty

theorem tyItems_eq_map (items : List Value) : tyItems items = items.map ty := by
  induction items with
  | nil => rfl
  | cons item rest ih => rw [tyItems, ih, List.map_cons]

theorem tyMembers_eq_map (members : List (String × Value)) :
    tyMembers members = members.map fun member => (member.1, member.2.ty) := by
  induction members with
  | nil => rfl
  | cons member rest ih => rw [tyMembers, ih, List.map_cons]

theorem conformItems_sharedTy {items : List Value}
    (each : ∀ item ∈ items, item.conforms item.ty = true) :
    conformItems items (sharedTy (tyItems items)) = true := by
  refine conformItems_iff.mpr fun item inside => ?_
  have among : item.ty ∈ tyItems items := tyItems_eq_map items ▸ List.mem_map_of_mem inside
  exact carries_of_le (le_sharedTy among) item (each item inside)

theorem conformMembers_sharedTy {members : List (String × Value)}
    (each : ∀ member ∈ members, member.2.conforms member.2.ty = true) :
    conformMembers members (sharedTy ((tyMembers members).map (·.2))) = true := by
  refine conformMembers_iff.mpr fun member inside => ?_
  have among : member.2.ty ∈ (tyMembers members).map (·.2) := by
    rw [tyMembers_eq_map, List.map_map]
    exact List.mem_map_of_mem inside
  exact carries_of_le (le_sharedTy among) member.2 (each member inside)

theorem conformPairwise_tyItems {items : List Value}
    (each : ∀ item ∈ items, item.conforms item.ty = true) :
    conformPairwise items (tyItems items) = true := by
  rw [conformPairwise_iff, tyItems_eq_map, List.forall₂_map_right_iff, List.forall₂_same]
  exact each

theorem conformAttributes_tyMembers {members : List (String × Value)}
    (ascending : Fields.Ascending members)
    (each : ∀ member ∈ members, member.2.conforms member.2.ty = true) :
    conformAttributes members (tyMembers members) = true := by
  refine conformAttributes_iff.mpr fun member inside => ⟨member.2.ty, ?_, each member inside⟩
  rw [Fields.find?_eq_some_iff (ascending_tyMembers ascending), tyMembers_eq_map]
  exact List.mem_map_of_mem inside

mutual

/-- Every value conforms to its own type. -/
theorem conforms_ty (value : Value) (ordered : value.Ordered) :
    value.conforms value.ty = true := by
  cases value with
  | null | bool | number | string => simp [conforms, ty]
  | list items => exact conformItems_sharedTy (conforms_ty_items items ordered)
  | set items => exact conformItems_sharedTy (conforms_ty_items items ordered)
  | tuple items => exact conformPairwise_tyItems (conforms_ty_items items ordered)
  | map members => exact conformMembers_sharedTy (conforms_ty_members members ordered.2)
  | object members =>
    have long : members.length = (tyMembers members).length := by simp [tyMembers_eq_map]
    have inside := conformAttributes_tyMembers ordered.1 (conforms_ty_members members ordered.2)
    rw [ty, conforms, Bool.and_eq_true, beq_iff_eq]
    exact ⟨long, inside⟩
termination_by structural value

theorem conforms_ty_items (items : List Value) (ordered : OrderedItems items) :
    ∀ item ∈ items, item.conforms item.ty = true := by
  cases items with
  | nil => exact fun _ inside => nomatch inside
  | cons item rest =>
    exact List.forall_mem_cons.mpr
      ⟨conforms_ty item ordered.1, conforms_ty_items rest ordered.2⟩
termination_by structural items

theorem conforms_ty_members (members : List (String × Value)) (ordered : OrderedMembers members) :
    ∀ member ∈ members, member.2.conforms member.2.ty = true := by
  cases members with
  | nil => exact fun _ inside => nomatch inside
  | cons member rest =>
    obtain ⟨name, value⟩ := member
    exact List.forall_mem_cons.mpr
      ⟨conforms_ty value ordered.1, conforms_ty_members rest ordered.2⟩
termination_by structural members

end

/-- A value conforms to every type that is at least as general as its own, to its own among them,
and what conforms to a type conforms to every more general one. -/
theorem conforms_above_ty :
    (∀ (value : Value) (ty : Ty), value.Ordered → value.ty ≤ ty → value.conforms ty = true) ∧
    (∀ value : Value, value.Ordered → value.conforms value.ty = true) ∧
    ∀ (value : Value) (narrow wide : Ty), narrow ≤ wide → value.conforms narrow = true →
      value.conforms wide = true := by
  refine ⟨?_, conforms_ty, fun value _ _ below => carries_of_le below value⟩
  intro value ty ordered below
  exact carries_of_le below value (conforms_ty value ordered)

section Example

/-- More general than the type of `motley`: it says nothing of the set and of the items in the
map. -/
def looseTy : Ty :=
  .object [("", .any), ("\"", .map (.tuple [.any, .any])), ("é", .string)]

theorem motley_ty_le : Codec.motley.ty ≤ looseTy :=
  have items := Ty.le_tuple (.cons (.any (.list .any)) (.cons (.any .any) .nil))
  Ty.le_object (.cons ⟨rfl, .any _⟩ (.cons ⟨rfl, .map items⟩ (.cons ⟨rfl, .refl _⟩ .nil)))

theorem conforms_above_ty_motley :
    Codec.motley.Ordered ∧ Codec.motley.ty ≤ looseTy ∧ looseTy ≠ Codec.motley.ty ∧
    Codec.motley.conforms looseTy = true ∧ Codec.motley.conforms Codec.motley.ty = true ∧
    Codec.motley.conforms .any = true := by
  obtain ⟨above, itself, wider⟩ := conforms_above_ty
  have ordered := Codec.motley_ordered
  have loose := above Codec.motley looseTy ordered motley_ty_le
  exact ⟨ordered, motley_ty_le, by decide, loose, itself Codec.motley ordered,
    wider Codec.motley looseTy .any (.any looseTy) loose⟩

end Example

end Value

end PluginBridge
