import Mathlib.Data.List.Basic
import PluginBridge.Spec.Violations

/-! A check reports the first violation that no missing attribute excuses, and passes if there is
none. The parts of a specification are checked one after another, so the argument is made for
violations of any kind: those at one step, those of two parts in a row, those of a list of parts,
and those inside a fallback. -/

namespace PluginBridge.Spec

variable {violated later : Place → Violation → Prop} {result last : Except Violation Unit}

/-! ## The order of places -/

theorem Step.lt_asymm {left right : Step} (before : left < right) : ¬ right < left := by
  cases left <;> cases right <;> first
    | exact before.elim
    | exact String.lt_asymm before
    | exact Nat.lt_asymm before

instance : Std.Asymm (α := Step) (· < ·) where
  asymm _ _ := Step.lt_asymm

/-- Only one violation is the first one. -/
theorem First.unique {place other : Place} {violation found : Violation}
    (first : First violated place violation) (second : First violated other found) :
    violation = found := by
  rcases first.2 other found second.1 with ⟨_, same⟩ | before
  · exact same.symm
  · rcases second.2 place violation first.1 with ⟨_, same⟩ | after
    · exact same
    · exact absurd after (List.lt_asymm before)

/-! ## What is excused -/

theorem excuses_cons {step other : Step} {missing place : Place} :
    Excuses (step :: missing) (other :: place) ↔ step = other ∧
      (Excuses missing place ∨
        (step = .primary ∧ .primary ∉ missing ∧ (place = missing ∨ missing < place))) := by
  constructor
  · rintro ⟨around, inner, behind, missed, bare, placed, order⟩
    cases around with
    | nil =>
      obtain ⟨rfl, rfl⟩ := List.cons.inj missed
      obtain ⟨rfl, rfl⟩ := List.cons.inj placed
      exact ⟨rfl, .inr ⟨rfl, bare, order⟩⟩
    | cons first around =>
      obtain ⟨rfl, rfl⟩ := List.cons.inj missed
      obtain ⟨rfl, rfl⟩ := List.cons.inj placed
      exact ⟨rfl, .inl ⟨around, inner, behind, rfl, bare, rfl, order⟩⟩
  · rintro ⟨rfl, ⟨around, inner, behind, rfl, bare, rfl, order⟩ | ⟨rfl, bare, order⟩⟩
    · exact ⟨step :: around, inner, behind, rfl, bare, rfl, order⟩
    · exact ⟨[], missing, place, rfl, bare, rfl, order⟩

/-- A missing attribute inside a fallback is itself excused. -/
theorem Excuses.self {place : Place} (inside : .primary ∈ place) : Excuses place place := by
  induction place with
  | nil => cases inside
  | cons step rest ih =>
    by_cases deeper : .primary ∈ rest
    · exact excuses_cons.mpr ⟨rfl, .inl (ih deeper)⟩
    · rcases List.mem_cons.mp inside with rfl | behind
      · exact excuses_cons.mpr ⟨rfl, .inr ⟨rfl, deeper, .inl rfl⟩⟩
      · exact absurd behind deeper

theorem Excuses.mem_primary {missing place : Place} (excuses : Excuses missing place) :
    .primary ∈ place := by
  obtain ⟨around, inner, behind, _, _, rfl, _⟩ := excuses
  exact List.mem_append_right _ (List.mem_cons_self ..)

/-- Nothing is excused from a part that begins with another step. -/
theorem Excuses.head {missing place : Place} (excuses : Excuses missing place) :
    missing.head? = place.head? := by
  obtain ⟨around, inner, behind, rfl, _, rfl, _⟩ := excuses
  cases around <;> rfl

theorem not_excuses_nil (missing : Place) : ¬ Excuses missing [] := by
  rintro ⟨around, inner, behind, _, _, placed, _⟩
  simp at placed

/-! ## Reports -/

/-- A check that passes leaves no violation unexcused, and one that fails names the first. -/
def Reports (violated : Place → Violation → Prop) : Except Violation Unit → Prop
  | .ok _ => ∀ place violation, ¬ Unexcused violated place violation
  | .error violation => ∃ place, First (Unexcused violated) place violation

theorem Reports.ok_iff (reports : Reports violated result) :
    result = .ok () ↔ ∀ place violation, ¬ Unexcused violated place violation := by
  cases result with
  | ok => exact iff_of_true rfl reports
  | error violation =>
    obtain ⟨place, first⟩ := reports
    exact iff_of_false (fun passed => nomatch passed) fun none => none place violation first.1

theorem Reports.error_iff (reports : Reports violated result) {violation : Violation} :
    result = .error violation ↔ ∃ place, First (Unexcused violated) place violation := by
  cases result with
  | ok =>
    refine iff_of_false (fun failed => nomatch failed) ?_
    rintro ⟨place, first⟩
    exact reports place violation first.1
  | error found =>
    constructor
    · rintro ⟨⟩
      exact reports
    · rintro ⟨place, first⟩
      obtain ⟨other, second⟩ := reports
      rw [second.unique first]

/-- What is violated leaves no choice of what is reported. -/
theorem Reports.unique {other : Except Violation Unit} (reports : Reports violated result)
    (again : Reports violated other) : result = other := by
  cases other with
  | ok => exact reports.ok_iff.mpr again
  | error violation => exact reports.error_iff.mpr again

theorem reports_none (none : ∀ place violation, ¬ violated place violation) :
    Reports violated (.ok ()) :=
  fun place violation unexcused => none place violation unexcused.1

theorem reports_only (violation : Violation)
    (only : ∀ place found, violated place found ↔ place = [] ∧ found = violation) :
    Reports violated (.error violation) := by
  refine ⟨[], ⟨(only _ _).mpr ⟨rfl, rfl⟩, fun missing _ _ => not_excuses_nil missing⟩, ?_⟩
  intro other found unexcused
  exact .inl ((only _ _).mp unexcused.1)

/-! ## Violations at one step -/

/-- The violations of a part, seen from the specification whose part it is. -/
def Under (step : Step) (violated : Place → Violation → Prop) (place : Place)
    (violation : Violation) : Prop :=
  ∃ inner, place = step :: inner ∧ violated inner violation

theorem unexcused_under {step : Step} (inner : step ≠ .primary) :
    Unexcused (Under step violated) = Under step (Unexcused violated) := by
  funext place violation
  apply propext
  constructor
  · rintro ⟨⟨inside, rfl, there⟩, unexcused⟩
    refine ⟨inside, rfl, there, ?_⟩
    intro missing name missed excuses
    exact unexcused (step :: missing) name ⟨missing, rfl, missed⟩
      (excuses_cons.mpr ⟨rfl, .inl excuses⟩)
  · rintro ⟨inside, rfl, there, unexcused⟩
    refine ⟨⟨inside, rfl, there⟩, ?_⟩
    rintro _ name ⟨missing, rfl, missed⟩ excuses
    rcases (excuses_cons.mp excuses).2 with excuses | ⟨same, _⟩
    · exact unexcused missing name missed excuses
    · exact inner same

theorem First.under {place : Place} {violation : Violation} (step : Step)
    (first : First violated place violation) :
    First (Under step violated) (step :: place) violation := by
  refine ⟨⟨place, rfl, first.1⟩, ?_⟩
  rintro _ found ⟨inner, rfl, there⟩
  rcases first.2 inner found there with ⟨rfl, same⟩ | before
  · exact .inl ⟨rfl, same⟩
  · exact .inr (List.cons_lt_cons_iff.mpr (.inr ⟨rfl, before⟩))

theorem first_under {step : Step} {violation : Violation} :
    (∃ place, First (Under step violated) place violation) ↔
      ∃ place, First violated place violation := by
  constructor
  · rintro ⟨_, ⟨inner, rfl, there⟩, before⟩
    refine ⟨inner, there, fun other found inside => ?_⟩
    rcases before (step :: other) found ⟨other, rfl, inside⟩ with ⟨same, equal⟩ | after
    · exact .inl ⟨(List.cons.inj same).2, equal⟩
    · rcases List.cons_lt_cons_iff.mp after with turn | ⟨_, after⟩
      · exact absurd turn (Step.lt_asymm turn)
      · exact .inr after
  · rintro ⟨place, first⟩
    exact ⟨step :: place, first.under step⟩

theorem Reports.under {step : Step} (inner : step ≠ .primary)
    (reports : Reports violated result) : Reports (Under step violated) result := by
  cases result with
  | ok =>
    intro place violation unexcused
    rw [unexcused_under inner] at unexcused
    obtain ⟨inside, _, unexcused⟩ := unexcused
    exact reports inside violation unexcused
  | error violation =>
    change ∃ place, First (Unexcused (Under step violated)) place violation
    rw [unexcused_under inner, first_under]
    exact reports

theorem Unexcused.of_primary {place : Place} {violation : Violation}
    (unexcused : Unexcused (Under .primary violated) place violation) :
    Under .primary (Unexcused violated) place violation := by
  obtain ⟨⟨inner, rfl, there⟩, unexcused⟩ := unexcused
  refine ⟨inner, rfl, there, fun missing name missed excuses => ?_⟩
  exact unexcused (.primary :: missing) name ⟨missing, rfl, missed⟩
    (excuses_cons.mpr ⟨rfl, .inl excuses⟩)

/-- The first violation inside a fallback, if it is a missing attribute, excuses all of them. -/
theorem Reports.forgiven {name : String}
    (reports : Reports violated (.error (.missingAttribute name))) :
    Reports (Under .primary violated) (.ok ()) := by
  obtain ⟨place, ⟨there, unexcused⟩, before⟩ := reports
  have bare : .primary ∉ place := fun inside => unexcused place name there (.self inside)
  intro other found stays
  obtain ⟨inner, rfl, within⟩ := stays.of_primary
  have order : inner = place ∨ place < inner := (before inner found within).imp_left And.left
  exact stays.2 (.primary :: place) name ⟨place, rfl, there⟩
    (excuses_cons.mpr ⟨rfl, .inr ⟨rfl, bare, order⟩⟩)

/-- If the first violation inside a fallback is another one, no missing attribute stands before it
that could excuse it. -/
theorem Reports.kept {violation : Violation} (reports : Reports violated (.error violation))
    (mismatch : ∀ name, violation ≠ .missingAttribute name) :
    Reports (Under .primary violated) (.error violation) := by
  obtain ⟨place, ⟨there, unexcused⟩, before⟩ := reports
  refine ⟨.primary :: place, ⟨⟨place, rfl, there⟩, ?_⟩, ?_⟩
  · rintro _ name ⟨missing, rfl, missed⟩ excuses
    rcases (excuses_cons.mp excuses).2 with excuses | ⟨_, bare, order⟩
    · exact unexcused missing name missed excuses
    · have within : Unexcused violated missing (.missingAttribute name) :=
        ⟨missed, fun _ _ _ excuses => bare excuses.mem_primary⟩
      rcases before missing _ within with ⟨_, same⟩ | after
      · exact mismatch name same.symm
      · rcases order with rfl | earlier
        · exact List.lt_asymm after after
        · exact List.lt_asymm after earlier
  · intro other found stays
    obtain ⟨inner, rfl, within⟩ := stays.of_primary
    rcases before inner found within with ⟨rfl, same⟩ | after
    · exact .inl ⟨rfl, same⟩
    · exact .inr (List.cons_lt_cons_iff.mpr (.inr ⟨rfl, after⟩))

theorem Reports.fallback (reports : Reports violated result) :
    Reports (Under .primary violated) (forgiveMissing result) := by
  cases result with
  | ok =>
    intro place violation unexcused
    obtain ⟨inner, _, within⟩ := unexcused.of_primary
    exact reports inner violation within
  | error violation =>
    cases violation with
    | missingAttribute => exact reports.forgiven
    | typeMismatch => exact reports.kept fun _ => nofun
    | notAnObject => exact reports.kept fun _ => nofun
    | blockCount => exact reports.kept fun _ => nofun

/-! ## Parts in a row -/

/-- The violations of one part come before those of another, and no step leads to both. -/
def Apart (violated later : Place → Violation → Prop) : Prop :=
  ∀ place violation other found, violated place violation → later other found →
    place < other ∧ place.head? ≠ other.head?

theorem unexcused_or (apart : Apart violated later) {place : Place} {violation : Violation} :
    Unexcused (fun place violation => violated place violation ∨ later place violation) place
        violation ↔
      Unexcused violated place violation ∨ Unexcused later place violation := by
  constructor
  · rintro ⟨there | there, unexcused⟩
    · exact .inl ⟨there, fun missing name missed => unexcused missing name (.inl missed)⟩
    · exact .inr ⟨there, fun missing name missed => unexcused missing name (.inr missed)⟩
  · rintro (⟨there, unexcused⟩ | ⟨there, unexcused⟩)
    · refine ⟨.inl there, ?_⟩
      rintro missing name (missed | missed) excuses
      · exact unexcused missing name missed excuses
      · exact (apart _ _ _ _ there missed).2 excuses.head.symm
    · refine ⟨.inr there, ?_⟩
      rintro missing name (missed | missed) excuses
      · exact (apart _ _ _ _ missed there).2 excuses.head
      · exact unexcused missing name missed excuses

theorem Reports.or (reports : Reports violated result) (behind : Reports later last)
    (apart : Apart violated later) :
    Reports (fun place violation => violated place violation ∨ later place violation)
      (result >>= fun _ => last) := by
  cases result with
  | error violation =>
    obtain ⟨place, first, before⟩ := reports
    refine ⟨place, (unexcused_or apart).mpr (.inl first), ?_⟩
    intro other found unexcused
    rcases (unexcused_or apart).mp unexcused with unexcused | unexcused
    · exact before other found unexcused
    · exact .inr (apart _ _ _ _ first.1 unexcused.1).1
  | ok =>
    have only {place : Place} {violation : Violation} :
        Unexcused (fun place violation => violated place violation ∨ later place violation) place
          violation ↔ Unexcused later place violation := by
      rw [unexcused_or apart, or_iff_right (reports place violation)]
    cases last with
    | ok => exact fun place violation unexcused => behind place violation (only.mp unexcused)
    | error violation =>
      obtain ⟨place, first, before⟩ := behind
      exact ⟨place, only.mpr first, fun other found unexcused =>
        before other found (only.mp unexcused)⟩

/-- Parts that are checked one after another, in the order of the steps that lead to them. -/
theorem reports_each {α : Type} {parts : List α} (step : α → Step)
    {violates : α → Place → Violation → Prop} {verify : α → Except Violation Unit}
    (ascending : parts.Pairwise fun left right => step left < step right)
    (inner : ∀ part ∈ parts, step part ≠ .primary)
    (each : ∀ part ∈ parts, Reports (violates part) (verify part)) :
    Reports (fun place violation => ∃ part ∈ parts, Under (step part) (violates part) place violation)
      (parts.forM verify) := by
  induction parts with
  | nil => exact reports_none fun place violation ⟨_, inside, _⟩ => nomatch inside
  | cons part rest ih =>
    obtain ⟨above, ascending⟩ := List.pairwise_cons.mp ascending
    rw [List.forall_mem_cons] at inner each
    have apart : Apart (Under (step part) (violates part)) fun place violation =>
        ∃ part ∈ rest, Under (step part) (violates part) place violation := by
      rintro _ violation _ found ⟨place, rfl, _⟩ ⟨next, inside, other, rfl, _⟩
      have before := above next inside
      refine ⟨List.cons_lt_cons_iff.mpr (.inl before), ?_⟩
      intro same
      rw [Option.some.inj same] at before
      exact Step.lt_asymm before before
    have reports := (each.1.under inner.1).or (ih ascending inner.2 each.2) apart
    simp only [List.exists_mem_cons_iff]
    exact reports

end PluginBridge.Spec
