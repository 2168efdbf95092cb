import Mathlib.Data.List.Induction
import Mathlib.Data.List.Nodup

/-! Lists that are gone through from the front by steps that may fail, and lists that grow at their
end. -/

namespace PluginBridge

variable {α β ε δ : Type}

/-! ## Steps that may fail -/

theorem bind_eq_ok {first : Except ε α} {next : α → Except ε β} {b : β} :
    (first >>= next) = .ok b ↔ ∃ a, first = .ok a ∧ next a = .ok b := by
  cases first <;> simp [bind, Except.bind]

/-- What comes after a check is done if the check passes. -/
theorem check_bind_eq_ok {check : Except ε Unit} {next : Unit → Except ε β} {b : β} :
    (check >>= next) = .ok b ↔ check = .ok () ∧ next () = .ok b :=
  bind_eq_ok.trans ⟨fun ⟨_, passed, made⟩ => ⟨passed, made⟩, fun ⟨passed, made⟩ => ⟨(), passed, made⟩⟩

theorem mapM_eq_ok_iff {f : α → Except ε β} {xs : List α} {ys : List β} :
    xs.mapM f = .ok ys ↔ xs.map f = ys.map .ok := by
  induction xs generalizing ys with
  | nil =>
    rw [List.map_nil, eq_comm, eq_comm (a := []), List.map_eq_nil_iff]
    exact ⟨Except.ok.inj, congrArg _⟩
  | cons x rest ih =>
    rw [List.mapM_cons, List.map_cons, eq_comm (a := f x :: _), List.map_eq_cons_iff]
    constructor
    · intro read
      obtain ⟨y, first, read⟩ := bind_eq_ok.mp read
      obtain ⟨later, others, made⟩ := bind_eq_ok.mp read
      exact ⟨y, later, (Except.ok.inj made).symm, first.symm, (ih.mp others).symm⟩
    · rintro ⟨y, later, rfl, first, others⟩
      rw [← first, ih.mpr others.symm]
      rfl

theorem mapM_of_failed {f : α → Except ε β} {before : List α} {x : α} {error : ε}
    (fine : ∀ y ∈ before, ∃ b, f y = .ok b) (failed : f x = .error error) (after : List α) :
    (before ++ x :: after).mapM f = .error error := by
  induction before with
  | nil =>
    rw [List.nil_append, List.mapM_cons, failed]
    rfl
  | cons y before ih =>
    obtain ⟨⟨b, first⟩, later⟩ := List.forall_mem_cons.mp fine
    rw [List.cons_append, List.mapM_cons, first, ih later]
    rfl

/-- The first step that fails is what fails. -/
theorem mapM_eq_error_iff {f : α → Except ε β} {xs : List α} {error : ε} :
    xs.mapM f = .error error ↔ ∃ before x after, xs = before ++ x :: after ∧
      (∀ y ∈ before, ∃ b, f y = .ok b) ∧ f x = .error error := by
  constructor
  · intro failed
    induction xs with
    | nil => cases failed
    | cons x rest ih =>
      rw [List.mapM_cons] at failed
      cases first : f x with
      | error =>
        rw [first] at failed
        cases failed
        exact ⟨[], x, rest, rfl, List.forall_mem_nil _, first⟩
      | ok b =>
        have behind : rest.mapM f = .error error := by
          cases others : rest.mapM f with
          | error =>
            rw [first, others] at failed
            cases failed
            rfl
          | ok =>
            rw [first, others] at failed
            cases failed
        obtain ⟨before, y, after, rfl, fine, blamed⟩ := ih behind
        exact ⟨x :: before, y, after, rfl, List.forall_mem_cons.mpr ⟨⟨b, first⟩, fine⟩, blamed⟩
  · rintro ⟨before, x, after, rfl, fine, failed⟩
    exact mapM_of_failed fine failed after

theorem forM_eq_ok_iff {f : α → Except ε Unit} {xs : List α} :
    xs.forM f = .ok () ↔ ∀ x ∈ xs, f x = .ok () := by
  induction xs with
  | nil => exact iff_of_true rfl (List.forall_mem_nil _)
  | cons x rest ih =>
    rw [List.forall_mem_cons, ← ih]
    exact check_bind_eq_ok

theorem forM_mapError (f : α → Except ε Unit) (g : ε → δ) (xs : List α) :
    (xs.forM fun x => (f x).mapError g) = (xs.forM f).mapError g := by
  induction xs with
  | nil => rfl
  | cons x rest ih =>
    change ((f x).mapError g >>= fun _ => rest.forM fun x => (f x).mapError g) =
      (f x >>= fun _ => rest.forM f).mapError g
    rw [ih]
    cases f x <;> rfl

/-! ## Growing at the end -/

/-- What stands somewhere in a list that has grown is the last one, or stood there before. -/
theorem eq_append_cons_of_concat {xs before after : List α} {last x : α}
    (same : xs ++ [last] = before ++ x :: after) :
    (xs = before ∧ last = x ∧ after = []) ∨
      ∃ between, xs = before ++ x :: between ∧ after = between ++ [last] := by
  rcases List.eq_nil_or_concat after with rfl | ⟨between, final, rfl⟩
  · obtain ⟨rfl, only⟩ := List.append_inj' same rfl
    exact .inl ⟨rfl, List.singleton_inj.mp only, rfl⟩
  · rw [List.concat_eq_append, ← List.cons_append, ← List.append_assoc] at same
    obtain ⟨rfl, only⟩ := List.append_inj' same rfl
    obtain rfl := List.singleton_inj.mp only
    exact .inr ⟨between, rfl, List.concat_eq_append⟩

/-- Unless all are told apart by a key, there is a first one whose key is taken. -/
theorem exists_first_taken {key : α → β} {xs : List α} (repeated : ¬ (xs.map key).Nodup) :
    ∃ before x after, xs = before ++ x :: after ∧ (before.map key).Nodup ∧
      key x ∈ before.map key := by
  induction xs using List.reverseRecOn with
  | nil => exact absurd List.nodup_nil repeated
  | append_singleton xs x ih =>
    by_cases distinct : (xs.map key).Nodup
    · refine ⟨xs, x, [], rfl, distinct, ?_⟩
      by_contra new
      rw [List.map_append, List.map_singleton, ← List.concat_eq_append] at repeated
      exact repeated ((List.nodup_concat ..).mpr ⟨new, distinct⟩)
    · obtain ⟨before, y, after, rfl, first, taken⟩ := ih distinct
      exact ⟨before, y, after ++ [x], by simp, first, taken⟩

/-- The last one that is related to anything is the one at the end, or was so before. -/
theorem last_concat {R : α → β → Prop} {xs : List α} {last : α} {b : β} :
    (∃ before x after, xs ++ [last] = before ++ x :: after ∧ R x b ∧
      ∀ later ∈ after, ∀ other, ¬ R later other) ↔
    R last b ∨ ((∀ other, ¬ R last other) ∧ ∃ before x after, xs = before ++ x :: after ∧ R x b ∧
      ∀ later ∈ after, ∀ other, ¬ R later other) := by
  constructor
  · rintro ⟨before, x, after, same, related, idle⟩
    rcases eq_append_cons_of_concat same with ⟨rfl, rfl, rfl⟩ | ⟨between, rfl, rfl⟩
    · exact .inl related
    · rw [List.forall_mem_append, List.forall_mem_singleton] at idle
      exact .inr ⟨idle.2, before, x, between, rfl, related, idle.1⟩
  · rintro (related | ⟨still, before, x, after, rfl, related, idle⟩)
    · exact ⟨xs, last, [], rfl, related, List.forall_mem_nil _⟩
    · refine ⟨before, x, after ++ [last], by simp, related, ?_⟩
      rw [List.forall_mem_append, List.forall_mem_singleton]
      exact ⟨idle, still⟩

end PluginBridge
