import PluginBridge.Proofs.Violations

/-! Validation is exact: it passes if and only if the body satisfies the specification, and else
reports the violation that comes first. A fallback forgives only what a missing attribute before it
excuses. -/

namespace PluginBridge

namespace Spec

/-- A specification and what it holds, by induction. -/
@[elab_as_elim]
theorem induct {motive : Spec → Prop}
    (object : ∀ entries, (∀ entry ∈ entries, motive entry.2) → motive (.object entries))
    (attr : ∀ name ty required, motive (.attr name ty required))
    (block : ∀ name nested required, motive nested → motive (.block name nested required))
    (blockList : ∀ name nested least most, motive nested →
      motive (.blockList name nested least most))
    (literal : ∀ value, motive (.literal value))
    (fallback : ∀ primary otherwise, motive primary → motive (.fallback primary otherwise))
    (spec : Spec) : motive spec :=
  @Spec.rec motive (fun entries => ∀ entry ∈ entries, motive entry.2) (fun entry => motive entry.2)
    object attr block blockList literal
    (fun primary otherwise inside _ => fallback primary otherwise inside)
    (fun _ inside => nomatch inside)
    (fun _ _ first rest => List.forall_mem_cons.mpr ⟨first, rest⟩)
    (fun _ _ inside => inside)
    spec

theorem orderedEntries_iff {entries : List (String × Spec)} :
    OrderedEntries entries ↔ ∀ entry ∈ entries, entry.2.Ordered := by
  induction entries with
  | nil => simp [OrderedEntries]
  | cons entry rest ih => simp [OrderedEntries, ih]

/-! ## What a body holds -/

theorem present?_eq_some_iff {name : String} {body : Fields Value} {value : Value} :
    present? name body = some value ↔ Holds name body value := by
  rw [present?, Option.filter_eq_some_iff, Holds]
  cases value <;> simp [Value.isNull]

theorem present?_eq_none_iff {name : String} {body : Fields Value} :
    present? name body = none ↔ ∀ value, ¬ Holds name body value := by
  rw [Option.eq_none_iff_forall_ne_some]
  exact forall_congr' fun value => not_congr present?_eq_some_iff

/-- A value is held or absent. -/
theorem holds_or_absent (name : String) (body : Fields Value) :
    (∃ value, present? name body = some value ∧ Holds name body value) ∨
      (present? name body = none ∧ ∀ value, ¬ Holds name body value) := by
  cases found : present? name body with
  | none => exact .inr ⟨rfl, present?_eq_none_iff.mp found⟩
  | some value => exact .inl ⟨value, rfl, present?_eq_some_iff.mp found⟩

theorem Holds.unique {name : String} {body : Fields Value} {value other : Value}
    (held : Holds name body value) (again : Holds name body other) : value = other :=
  Option.some.inj (held.1.symm.trans again.1)

theorem holdsBlocks_iff {name : String} {body : Fields Value} {items : List Value} :
    HoldsBlocks name body items ↔ items = blocks name body := by
  unfold blocks
  constructor
  · rintro (absent | held | held | ⟨held, unlisted, untupled⟩)
    · rw [present?_eq_none_iff.mpr absent]
    · rw [present?_eq_some_iff.mpr held]
    · rw [present?_eq_some_iff.mpr held]
    · rw [present?_eq_some_iff.mpr held]
      split
      · contradiction
      · next same => exact absurd (Option.some.inj same) (unlisted _)
      · next same => exact absurd (Option.some.inj same) (untupled _)
      · next same => rw [Option.some.inj same]
  · rintro rfl
    split
    next absent => exact .absent (present?_eq_none_iff.mp absent)
    next held => exact .list (present?_eq_some_iff.mp held)
    next held => exact .tuple (present?_eq_some_iff.mp held)
    next value unlisted untupled held =>
      exact .single (present?_eq_some_iff.mp held) unlisted untupled

theorem not_allowed_iff {count : Nat} {least most : UInt32} : ¬ Allowed count least most ↔
    count < least.toNat ∨ (0 < most.toNat ∧ most.toNat < count) := by
  rw [Allowed, ← UInt32.toNat_inj, UInt32.toNat_zero]
  omega

/-! ## Violations by kind -/

def ViolatesBlock (nested : Spec) (block : Value) (place : Place) (violation : Violation) : Prop :=
  match block.members? with
  | some members => Violates nested members place violation
  | none => place = [] ∧ violation = .notAnObject block.ty

theorem violates_attr_of_holds {name : String} {ty : Ty} {required : Bool} {body : Fields Value}
    {value : Value} (held : Holds name body value) {place : Place} {violation : Violation} :
    Violates (.attr name ty required) body place violation ↔
      ¬ value.conforms ty = true ∧ place = [] ∧ violation = .typeMismatch name ty value.ty := by
  rw [Bool.not_eq_true]
  constructor
  · intro violates
    cases violates with
    | missing absent => exact absurd held (absent value)
    | mistyped again refused =>
      obtain rfl := held.unique again
      exact ⟨refused, rfl, rfl⟩
  · rintro ⟨refused, rfl, rfl⟩
    exact .mistyped held refused

theorem violates_attr_of_absent {name : String} {ty : Ty} {required : Bool} {body : Fields Value}
    (absent : ∀ value, ¬ Holds name body value) {place : Place} {violation : Violation} :
    Violates (.attr name ty required) body place violation ↔
      required = true ∧ place = [] ∧ violation = .missingAttribute name := by
  constructor
  · intro violates
    cases violates with
    | missing => exact ⟨rfl, rfl, rfl⟩
    | mistyped held => exact absurd held (absent _)
  · rintro ⟨rfl, rfl, rfl⟩
    exact .missing absent

theorem violates_block_of_holds {name : String} {nested : Spec} {required : Bool}
    {body : Fields Value} {value : Value} (held : Holds name body value) {place : Place}
    {violation : Violation} :
    Violates (.block name nested required) body place violation ↔
      Under .block (ViolatesBlock nested value) place violation := by
  constructor
  · intro violates
    cases violates with
    | missingBlock absent => exact absurd held (absent value)
    | blockShape again shapeless =>
      obtain rfl := held.unique again
      exact ⟨[], rfl, by simp [ViolatesBlock, shapeless]⟩
    | inBlock again shaped inside =>
      obtain rfl := held.unique again
      exact ⟨_, rfl, by simpa [ViolatesBlock, shaped] using inside⟩
  · rintro ⟨inner, rfl, inside⟩
    unfold ViolatesBlock at inside
    split at inside
    next shaped => exact .inBlock held shaped inside
    next shapeless =>
      obtain ⟨rfl, rfl⟩ := inside
      exact .blockShape held shapeless

theorem violates_block_of_absent {name : String} {nested : Spec} {required : Bool}
    {body : Fields Value} (absent : ∀ value, ¬ Holds name body value) {place : Place}
    {violation : Violation} :
    Violates (.block name nested required) body place violation ↔
      required = true ∧ place = [] ∧ violation = .missingAttribute name := by
  constructor
  · intro violates
    cases violates with
    | missingBlock => exact ⟨rfl, rfl, rfl⟩
    | blockShape held => exact absurd held (absent _)
    | inBlock held => exact absurd held (absent _)
  · rintro ⟨rfl, rfl, rfl⟩
    exact .missingBlock absent

theorem violates_blockList {name : String} {nested : Spec} {least most : UInt32}
    {body : Fields Value} {place : Place} {violation : Violation} :
    Violates (.blockList name nested least most) body place violation ↔
      (¬ Allowed (blocks name body).length least most ∧ place = [] ∧
        violation = .blockCount name (blocks name body).length least most) ∨
      ∃ part ∈ (blocks name body).zipIdx,
        Under (.item part.2) (ViolatesBlock nested part.1) place violation := by
  constructor
  · intro violates
    cases violates with
    | count held refused =>
      obtain rfl := holdsBlocks_iff.mp held
      exact .inl ⟨refused, rfl, rfl⟩
    | itemShape held found shapeless =>
      obtain rfl := holdsBlocks_iff.mp held
      exact .inr ⟨(_, _), List.mk_mem_zipIdx_iff_getElem?.mpr found, [], rfl,
        by simp [ViolatesBlock, shapeless]⟩
    | inItem held found shaped inside =>
      obtain rfl := holdsBlocks_iff.mp held
      exact .inr ⟨(_, _), List.mk_mem_zipIdx_iff_getElem?.mpr found, _, rfl,
        by simpa [ViolatesBlock, shaped] using inside⟩
  · have held := holdsBlocks_iff.mpr (rfl : blocks name body = blocks name body)
    rintro (⟨refused, rfl, rfl⟩ | ⟨⟨value, position⟩, member, inner, rfl, inside⟩)
    · exact .count held refused
    · have found := List.mk_mem_zipIdx_iff_getElem?.mp member
      unfold ViolatesBlock at inside
      split at inside
      next shaped => exact .inItem held found shaped inside
      next shapeless =>
        obtain ⟨rfl, rfl⟩ := inside
        exact .itemShape held found shapeless

theorem violates_object {entries : List (String × Spec)} {body : Fields Value} {place : Place}
    {violation : Violation} :
    Violates (.object entries) body place violation ↔
      ∃ entry ∈ entries, Under (.output entry.1) (Violates entry.2 body) place violation := by
  constructor
  · intro violates
    cases violates with
    | inEntry member inside => exact ⟨_, member, _, rfl, inside⟩
  · rintro ⟨entry, member, inner, rfl, inside⟩
    exact .inEntry member inside

theorem violates_fallback {primary otherwise : Spec} {body : Fields Value} {place : Place}
    {violation : Violation} :
    Violates (.fallback primary otherwise) body place violation ↔
      Under .primary (Violates primary body) place violation := by
  constructor
  · intro violates
    cases violates with
    | inPrimary inside => exact ⟨_, rfl, inside⟩
  · rintro ⟨inner, rfl, inside⟩
    exact .inPrimary inside

/-! ## What a check reports -/

theorem Reports.congr {violated other : Place → Violation → Prop} {result : Except Violation Unit}
    (reports : Reports other result)
    (same : ∀ place violation, violated place violation ↔ other place violation) :
    Reports violated result := by
  have equal : violated = other := by
    funext place violation
    exact propext (same place violation)
  rwa [equal]

theorem checkEntries_eq_forM (entries : List (String × Spec)) (body : Fields Value) :
    checkEntries entries body = entries.forM fun entry => check entry.2 body := by
  induction entries with
  | nil => simp only [checkEntries]; rfl
  | cons entry rest ih =>
    obtain ⟨name, spec⟩ := entry
    simp only [checkEntries, ih]
    rfl

theorem reports_block {nested : Spec}
    (ih : ∀ body, Reports (Violates nested body) (check nested body)) (block : Value) :
    Reports (ViolatesBlock nested block) (blockBody block >>= check nested) := by
  unfold ViolatesBlock blockBody
  cases block.members? with
  | none => exact reports_only _ fun place violation => Iff.rfl
  | some members => exact ih members

theorem reports_if {violated : Place → Violation → Prop} {wrong : Prop} [Decidable wrong]
    (violation : Violation) (only : ∀ place found,
      violated place found ↔ wrong ∧ place = [] ∧ found = violation) :
    Reports violated (if wrong then .error violation else .ok ()) := by
  split
  next holds =>
    exact reports_only violation fun place found => (only place found).trans (and_iff_right holds)
  next fine => exact reports_none fun place found there => fine ((only place found).mp there).1

theorem reports_attribute (name : String) (ty : Ty) (required : Bool) (body : Fields Value) :
    Reports (Violates (.attr name ty required) body) (checkAttribute name ty required body) := by
  unfold checkAttribute
  rcases holds_or_absent name body with ⟨value, found, held⟩ | ⟨found, absent⟩
  · rw [found]
    dsimp only
    rw [← ite_not]
    exact reports_if _ fun place violation => violates_attr_of_holds held
  · rw [found]
    exact reports_if _ fun place violation => violates_attr_of_absent absent

theorem reports_entries {entries : List (String × Spec)} (ascending : Fields.Ascending entries)
    {body : Fields Value}
    (each : ∀ entry ∈ entries, Reports (Violates entry.2 body) (check entry.2 body)) :
    Reports (Violates (.object entries) body) (checkEntries entries body) := by
  rw [checkEntries_eq_forM]
  have reports := reports_each (fun entry : String × Spec => .output entry.1) ascending
    (fun _ _ => nofun) each
  exact reports.congr fun _ _ => violates_object

theorem reports_blocks {nested : Spec}
    (ih : ∀ body, Reports (Violates nested body) (check nested body)) (blocks : List Value) :
    Reports (fun place violation => ∃ part ∈ blocks.zipIdx,
        Under (.item part.2) (ViolatesBlock nested part.1) place violation)
      (blocks.forM fun block => blockBody block >>= check nested) := by
  have positions : (blocks.zipIdx.map Prod.snd).Pairwise (· < ·) := by
    rw [List.zipIdx_map_snd]
    exact List.pairwise_lt_range'
  have ascending : blocks.zipIdx.Pairwise fun left right => left.2 < right.2 :=
    List.pairwise_map.mp positions
  have reports := reports_each (fun part : Value × Nat => .item part.2) ascending
    (fun _ _ => nofun) fun part _ => reports_block ih part.1
  have whole : (blocks.zipIdx.forM fun part => blockBody part.1 >>= check nested) =
      blocks.forM fun block => blockBody block >>= check nested := by
    conv => rhs; rw [← List.zipIdx_map_fst 0 blocks]
    simp only [List.forM_eq_forM, List.forM_map]
  rwa [whole] at reports

theorem reports_count (name : String) (count : Nat) (least most : UInt32) :
    Reports (fun place violation => ¬ Allowed count least most ∧ place = [] ∧
      violation = .blockCount name count least most) (checkCount name count least most) :=
  reports_if _ fun _ _ => and_congr_left' not_allowed_iff

/-- The number of blocks is a violation before those of the blocks. -/
theorem apart_items {nested : Spec} {refused : Prop} {violation : Violation}
    (blocks : List Value) :
    Apart (fun place found => refused ∧ place = [] ∧ found = violation) fun place found =>
      ∃ part ∈ blocks.zipIdx, Under (.item part.2) (ViolatesBlock nested part.1) place found := by
  rintro _ _ _ _ ⟨_, rfl, _⟩ ⟨_, _, _, rfl, _⟩
  exact ⟨List.nil_lt_cons .., nofun⟩

/-- A check reports the first violation, if there is one that is not excused. -/
theorem reports_check (spec : Spec) (ordered : spec.Ordered) (body : Fields Value) :
    Reports (Violates spec body) (check spec body) := by
  induction spec using induct generalizing body with
  | object entries ih =>
    rw [check]
    have each := orderedEntries_iff.mp ordered.2
    exact reports_entries ordered.1 fun entry inside => ih entry inside (each entry inside) body
  | attr name ty required =>
    rw [check]
    exact reports_attribute name ty required body
  | block name nested required ih =>
    have inner : Step.block ≠ .primary := nofun
    rw [check]
    rcases holds_or_absent name body with ⟨value, found, held⟩ | ⟨found, absent⟩
    · rw [found]
      have reports := (reports_block (ih ordered) value).under inner
      exact reports.congr fun _ _ => violates_block_of_holds held
    · rw [found]
      exact reports_if _ fun _ _ => violates_block_of_absent absent
  | blockList name nested least most ih =>
    rw [check]
    have reports := (reports_count name (blocks name body).length least most).or (reports_blocks (ih ordered) _)
      (apart_items (blocks name body))
    exact reports.congr fun _ _ => violates_blockList
  | literal value =>
    rw [check]
    exact reports_none fun place violation violates => nomatch violates
  | fallback primary otherwise ih =>
    rw [check]
    exact (ih ordered.1 body).fallback.congr fun _ _ => violates_fallback

/-! ## Specifications without fallbacks -/

theorem Satisfies.not_violates {spec : Spec} {body : Fields Value} {place : Place}
    {violation : Violation} (satisfies : Satisfies spec body) :
    ¬ Violates spec body place violation := by
  intro violates
  induction violates with
  | missing absent =>
    cases satisfies with
    | attr needed typed =>
      obtain ⟨value, held⟩ := needed rfl
      exact absent value held
  | mistyped held refused =>
    cases satisfies with
    | attr needed typed => exact absurd (typed _ held) (Bool.not_eq_true _ ▸ refused)
  | missingBlock absent =>
    cases satisfies with
    | block needed shaped inside =>
      obtain ⟨value, held⟩ := needed rfl
      exact absent value held
  | blockShape held shapeless =>
    cases satisfies with
    | block needed shaped inside =>
      obtain ⟨members, found⟩ := shaped _ held
      exact Option.some_ne_none members (found.symm.trans shapeless)
  | inBlock held found _ ih =>
    cases satisfies with
    | block needed shaped inside => exact ih (inside _ _ held found)
  | count held refused =>
    cases satisfies with
    | blockList again allowed shaped inside =>
      rw [holdsBlocks_iff.mp held, ← holdsBlocks_iff.mp again] at refused
      exact refused allowed
  | itemShape held found shapeless =>
    cases satisfies with
    | blockList again allowed shaped inside =>
      rw [holdsBlocks_iff.mp held, ← holdsBlocks_iff.mp again] at found
      obtain ⟨members, shape⟩ := shaped _ (List.mem_of_getElem? found)
      exact Option.some_ne_none members (shape.symm.trans shapeless)
  | inItem held found shape _ ih =>
    cases satisfies with
    | blockList again allowed shaped inside =>
      rw [holdsBlocks_iff.mp held, ← holdsBlocks_iff.mp again] at found
      exact ih (inside _ (List.mem_of_getElem? found) _ shape)
  | inEntry member _ ih =>
    cases satisfies with
    | object each => exact ih (each _ member)
  | inPrimary => cases satisfies

theorem Plain.satisfies {spec : Spec} (plain : Plain spec) {body : Fields Value}
    (none : ∀ place violation, ¬ Violates spec body place violation) : Satisfies spec body := by
  induction plain generalizing body with
  | object each ih =>
    refine .object fun entry member => ih entry member fun place violation violates => ?_
    exact none _ _ (.inEntry member violates)
  | attr name ty required =>
    refine .attr ?_ ?_
    · rintro rfl
      by_contra absent
      exact none _ _ (.missing (not_exists.mp absent))
    · intro value held
      by_contra refused
      exact none _ _ (.mistyped held (Bool.not_eq_true _ ▸ refused))
  | block name required plain ih =>
    refine .block ?_ ?_ ?_
    · rintro rfl
      by_contra absent
      exact none _ _ (.missingBlock (not_exists.mp absent))
    · intro value held
      cases shape : value.members? with
      | none => exact absurd (.blockShape held shape) (none _ _)
      | some members => exact ⟨members, rfl⟩
    · intro value members held shape
      exact ih fun place violation violates => none _ _ (.inBlock held shape violates)
  | blockList name least most plain ih =>
    have held := holdsBlocks_iff.mpr (rfl : blocks name body = blocks name body)
    refine .blockList held ?_ ?_ ?_
    · by_contra refused
      exact none _ _ (.count held refused)
    · intro block member
      obtain ⟨position, found⟩ := List.getElem?_of_mem member
      cases shape : block.members? with
      | none => exact absurd (.itemShape held found shape) (none _ _)
      | some members => exact ⟨members, rfl⟩
    · intro block member members shape
      obtain ⟨position, found⟩ := List.getElem?_of_mem member
      exact ih fun place violation violates => none _ _ (.inItem held found shape violates)
  | literal value => exact .literal value body

/-- Without fallbacks nothing is excused. -/
theorem Plain.bare {spec : Spec} {body : Fields Value} {place : Place} {violation : Violation}
    (plain : Plain spec) (violates : Violates spec body place violation) : .primary ∉ place := by
  induction violates with
  | missing | mistyped | missingBlock | count => exact List.not_mem_nil
  | blockShape | itemShape => simp
  | inBlock _ _ _ ih =>
    cases plain with
    | block _ _ plain => simpa using ih plain
  | inItem _ _ _ _ ih =>
    cases plain with
    | blockList _ _ _ plain => simpa using ih plain
  | inEntry member _ ih =>
    cases plain with
    | object each => simpa using ih (each _ member)
  | inPrimary => cases plain

theorem Plain.unexcused {spec : Spec} (plain : Plain spec) (body : Fields Value) :
    Unexcused (Violates spec body) = Violates spec body := by
  funext place violation
  refine propext ⟨And.left, fun violates => ⟨violates, ?_⟩⟩
  intro missing name _ excuses
  exact plain.bare violates excuses.mem_primary

end Spec

/-- Validation of a specification without fallbacks passes exactly if the body is a map or an object
that satisfies every entry. Else it reports that the body is none, or the violation that comes
first. -/
theorem ObjectSpec.validate_exact (spec : ObjectSpec) (ordered : Spec.Ordered (.object spec))
    (plain : Spec.Plain (.object spec)) (body : Value) :
    (spec.validate body = .ok () ↔ ∃ members, body.members? = some members ∧
      ∀ entry ∈ spec, Spec.Satisfies entry.2 members) ∧
    ∀ violation, spec.validate body = .error violation ↔
      (body.members? = none ∧ violation = .notAnObject body.ty) ∨
      ∃ members place, body.members? = some members ∧
        Spec.First (Spec.Violates (.object spec) members) place violation := by
  unfold ObjectSpec.validate Spec.blockBody
  cases shape : body.members? with
  | none =>
    refine ⟨iff_of_false nofun (by simp), fun violation => ?_⟩
    constructor
    · rintro ⟨⟩
      exact .inl ⟨rfl, rfl⟩
    · rintro (⟨_, rfl⟩ | ⟨_, _, same, _⟩)
      · rfl
      · cases same
  | some members =>
    have reports := Spec.reports_check (.object spec) ordered members
    rw [Spec.check] at reports
    change (Spec.checkEntries spec members = _ ↔ _) ∧ ∀ _, Spec.checkEntries spec members = _ ↔ _
    rw [reports.ok_iff, plain.unexcused]
    refine ⟨?_, fun violation => ?_⟩
    · constructor
      · intro none
        cases plain.satisfies none with
        | object each => exact ⟨members, rfl, each⟩
      · rintro ⟨_, ⟨⟩, each⟩ place violation
        exact (Spec.Satisfies.object each).not_violates
    · rw [reports.error_iff, plain.unexcused]
      simp

section Example

def mounts : ObjectSpec :=
  [("count", .attr "count" .number false),
    ("mount", .blockList "mount" (.object [("path", .attr "path" .string true)]) 1 2),
    ("name", .attr "name" .string true)]

/-- Null is no count, and the one mount is no list. -/
def oneMount : Value :=
  .object [("count", .null), ("mount", .map [("path", .string "/")]), ("name", .string "")]

/-- The second mount has no path, and the name is missing. -/
def pathlessMount : Value :=
  .map [("mount", .tuple [.map [("path", .string "/")], .object []])]

theorem validate_exact_mounts :
    Spec.Ordered (.object mounts) ∧ Spec.Plain (.object mounts) ∧
      (∃ members, oneMount.members? = some members ∧
        ∀ entry ∈ mounts, Spec.Satisfies entry.2 members) ∧
      ∃ members place, pathlessMount.members? = some members ∧
        Spec.First (Spec.Violates (.object mounts) members) place (.missingAttribute "path") := by
  have ordered : Spec.Ordered (.object mounts) := by
    simp only [mounts, Spec.Ordered, Spec.OrderedEntries, Ty.Ordered]
    decide
  have plain : Spec.Plain (.object mounts) := by
    have path : Spec.Plain (.object [("path", .attr "path" .string true)]) :=
      .object (by simp [Spec.Plain.attr])
    exact .object (by simp [mounts, Spec.Plain.attr, Spec.Plain.blockList, path])
  have passes : mounts.validate oneMount = .ok () := by decide
  have fails : mounts.validate pathlessMount = .error (.missingAttribute "path") := by
    decide
  refine ⟨ordered, plain, (mounts.validate_exact ordered plain oneMount).1.mp passes, ?_⟩
  rcases ((mounts.validate_exact ordered plain pathlessMount).2 _).mp fails with
    ⟨_, other⟩ | first
  · cases other
  · exact first

end Example

namespace Spec

/-! ## Fallbacks -/

/-- A violation inside a fallback that is no missing attribute, and that none excuses. -/
def Exposed (primary : Spec) (body : Fields Value) (place : Place) (mismatch : Violation) : Prop :=
  Violates primary body place mismatch ∧ (∀ name, mismatch ≠ .missingAttribute name) ∧
    ∀ missing name, Violates primary body missing (.missingAttribute name) →
      ¬ Excuses (.primary :: missing) (.primary :: place)

theorem unexcused_primary {primary : Spec} {body : Fields Value} :
    Unexcused (Under .primary (Violates primary body)) = Under .primary (Exposed primary body) := by
  funext place violation
  apply propext
  constructor
  · rintro ⟨⟨inner, rfl, there⟩, unexcused⟩
    refine ⟨inner, rfl, there, ?_, fun missing name missed =>
      unexcused (.primary :: missing) name ⟨missing, rfl, missed⟩⟩
    rintro name rfl
    exact unexcused _ name ⟨inner, rfl, there⟩ (.self (List.mem_cons_self ..))
  · rintro ⟨inner, rfl, there, _, unexcused⟩
    refine ⟨⟨inner, rfl, there⟩, ?_⟩
    rintro _ name ⟨missing, rfl, missed⟩
    exact unexcused missing name missed

/-- A fallback fails exactly if some mismatch inside is not excused: no attribute is missing before
it, in ascending order of the output names, under the same fallback. What it falls back to plays no
part. -/
theorem check_fallback_exact (primary otherwise : Spec) (ordered : primary.Ordered)
    (body : Fields Value) :
    (check (.fallback primary otherwise) body = .ok () ↔
      ¬ ∃ place mismatch, Exposed primary body place mismatch) ∧
    ∀ violation, check (.fallback primary otherwise) body = .error violation ↔
      ∃ place, First (Exposed primary body) place violation := by
  have reports := (reports_check primary ordered body).fallback
  rw [check]
  refine ⟨?_, fun violation => ?_⟩
  · rw [reports.ok_iff, unexcused_primary]
    constructor
    · rintro none ⟨place, mismatch, exposed⟩
      exact none (.primary :: place) mismatch ⟨place, rfl, exposed⟩
    · rintro none _ violation ⟨place, rfl, exposed⟩
      exact none ⟨place, violation, exposed⟩
  · rw [reports.error_iff, unexcused_primary, first_under]

section Example

def pair (first second : String) : Spec :=
  .object [("x", .attr first .string true), ("y", .attr second .string true)]

/-- A body in which the first attribute of a pair is missing, the second one is no string. -/
def mistyped : Fields Value :=
  [("q", .number ⟨0⟩), ("r", .number ⟨0⟩)]

/-- Inside the inner fallback `q` is excused, since `p` is missing. This does not excuse `r`, which
is outside, and `s` is missing only after it. -/
def layered : Spec :=
  .object [("a", .fallback (pair "p" "q") (.literal .null)), ("b", pair "r" "s")]

theorem check_fallback_layered :
    layered.Ordered ∧ ∃ place, First (Exposed layered mistyped) place
      (.typeMismatch "r" .string .number) := by
  have ordered : layered.Ordered := by
    simp only [layered, pair, Ordered, OrderedEntries, Ty.Ordered, Value.Ordered]
    decide
  have refused : check (.fallback layered (.literal .null)) mistyped =
      .error (.typeMismatch "r" .string .number) := by decide
  exact ⟨ordered, ((check_fallback_exact layered (.literal .null) ordered mistyped).2 _).mp refused⟩

/-- An attribute is held, is described and has the wrong type, and yet the fallback passes, since an
attribute is missing whose output comes first. With the two outputs exchanged it fails. -/
theorem mismatch_excused :
    Holds "q" mistyped (.number ⟨0⟩) ∧
      Violates (pair "p" "q") mistyped [.output "y"] (.typeMismatch "q" .string .number) ∧
      check (.fallback (pair "p" "q") (.literal .null)) mistyped = .ok () ∧
      check (.fallback (pair "q" "p") (.literal .null)) mistyped =
        .error (.typeMismatch "q" .string .number) := by
  have held : Holds "q" mistyped (.number ⟨0⟩) := ⟨rfl, nofun⟩
  exact ⟨held, .inEntry (.tail _ (.head _)) (.mistyped held rfl), by decide, by decide⟩

end Example

end Spec

end PluginBridge
