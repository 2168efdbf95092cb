import Mathlib.Data.List.Induction
import PluginBridge.CancelTrigger
import PluginBridge.Proofs.Numbering

/-! Which guards a trigger cancels, however the guards overlap: the history of the trigger decides
it, and a fire reaches the guard that was armed last as long as that one is live. -/

namespace PluginBridge.CancelTrigger

variable {trigger : CancelTrigger} {guard : Nat}

theorem isCancelled_iff : trigger.isCancelled guard = true ↔ guard ∈ trigger.cancelled :=
  List.contains_iff_mem

theorem armed_iff : trigger.armed = true ↔ ∃ guard, trigger.slot = some guard :=
  Option.isSome_iff_exists

theorem fire_armed (trigger : CancelTrigger) : trigger.fire.2 = trigger.armed := by
  unfold fire armed
  cases trigger.slot <;> rfl

/-- A fire changes nothing but which guards are cancelled. -/
theorem fire_eq (trigger : CancelTrigger) :
    trigger.fire.1 = { trigger with
      cancelled := trigger.slot.elim trigger.cancelled trigger.cancelled.insert } := by
  obtain ⟨generation, guards, slot, cancelled⟩ := trigger
  cases slot <;> rfl

namespace Usage

variable {usage : Usage}

def guardAfter (events : List Event) : Nat :=
  (run events).trigger.arm.2

theorem run_concat (events : List Event) (event : Event) :
    run (events ++ [event]) = (run events).step event := by
  rw [run, List.foldl_append]
  rfl

theorem guards_step (usage : Usage) (event : Event) :
    (usage.step event).trigger.guards = usage.trigger.guards + [event].count .arm := by
  cases event with
  | arm => rfl
  | drop guard =>
    simp only [step, CancelTrigger.drop]
    split
    · split <;> rfl
    · rfl
  | fire =>
    simp only [step, fire_eq]
    rfl

theorem guards_run (events : List Event) :
    (run events).trigger.guards = events.count .arm := by
  induction events using List.reverseRecOn with
  | nil => rfl
  | append_singleton events event ih => rw [run_concat, guards_step, ih, List.count_append]

theorem guardAfter_eq (events : List Event) : guardAfter events = events.count .arm + 1 := by
  rw [guardAfter, arm, guards_run]

/-! ## What every event keeps -/

/-- The slot holds the guard that was armed last exactly while that one is live. -/
structure Sound (usage : Usage) : Prop where
  generation : usage.trigger.generation = generationOf usage.trigger.guards
  numbered : ∀ {guard}, guard ∈ usage.live → 0 < guard ∧ guard ≤ usage.trigger.guards
  once : usage.live.Nodup
  slot : ∀ {guard},
    usage.trigger.slot = some guard ↔ guard = usage.trigger.guards ∧ guard ∈ usage.live
  fired : ∀ {guard}, guard ∈ usage.trigger.cancelled → guard ≤ usage.trigger.guards

theorem Sound.arm (sound : Sound usage) : Sound (usage.step .arm) := by
  have fresh : usage.trigger.guards + 1 ∉ usage.live := by
    intro live
    have bound := (sound.numbered live).2
    omega
  constructor
  · change usage.trigger.generation + 1 = generationOf (usage.trigger.guards + 1)
    rw [sound.generation]
    exact Numbering.next_ofNat _
  · intro guard live
    change 0 < guard ∧ guard ≤ usage.trigger.guards + 1
    rcases List.mem_append.mp live with before | new
    · have bound := sound.numbered before
      omega
    · rw [List.mem_singleton.mp new]
      exact ⟨Nat.succ_pos _, Nat.le_refl _⟩
  · change (usage.live ++ [usage.trigger.guards + 1]).Nodup
    rw [List.nodup_append]
    refine ⟨sound.once, List.pairwise_singleton _ _, ?_⟩
    intro live isLive new isNew same
    rw [same, List.mem_singleton.mp isNew] at isLive
    exact fresh isLive
  · intro guard
    change some (usage.trigger.guards + 1) = some guard ↔
      guard = usage.trigger.guards + 1 ∧ guard ∈ usage.live ++ [usage.trigger.guards + 1]
    rw [Option.some_inj]
    constructor
    · rintro rfl
      exact ⟨rfl, List.mem_append_right _ (List.mem_singleton_self _)⟩
    · exact fun newest => newest.1.symm
  · intro guard cancelled
    exact Nat.le_succ_of_le (sound.fired cancelled)

/-- The end of an older call leaves the slot to the newer one. -/
theorem Sound.drop_older (sound : Sound usage) (few : usage.trigger.guards < 2 ^ 64)
    (older : guard < usage.trigger.guards) : usage.trigger.drop guard = usage.trigger := by
  apply if_neg
  rw [sound.generation]
  intro same
  have equal := Numbering.ofNat_injective few (Nat.lt_trans older few) same
  omega

theorem Sound.drop_newest (sound : Sound usage) :
    usage.trigger.drop usage.trigger.guards = { usage.trigger with slot := none } :=
  if_pos sound.generation

theorem Sound.drop (sound : Sound usage) (few : usage.trigger.guards < 2 ^ 64)
    (live : guard ∈ usage.live) : Sound ⟨usage.trigger.drop guard, usage.live.erase guard⟩ := by
  have others : ∀ {other}, other ∈ usage.live.erase guard ↔ other ≠ guard ∧ other ∈ usage.live :=
    sound.once.mem_erase_iff
  rcases Nat.lt_or_eq_of_le (sound.numbered live).2 with older | newest
  · rw [sound.drop_older few older]
    refine ⟨sound.generation, fun kept => sound.numbered (others.mp kept).2,
      sound.once.erase guard, ?_, sound.fired⟩
    intro other
    rw [sound.slot, others]
    constructor
    · rintro ⟨rfl, kept⟩
      exact ⟨rfl, Nat.ne_of_gt older, kept⟩
    · exact fun kept => ⟨kept.1, kept.2.2⟩
  · rw [newest, sound.drop_newest, ← newest]
    refine ⟨sound.generation, fun kept => sound.numbered (others.mp kept).2,
      sound.once.erase guard, ?_, sound.fired⟩
    intro other
    change none = some other ↔ other = usage.trigger.guards ∧ other ∈ usage.live.erase guard
    rw [others, newest]
    constructor
    · nofun
    · exact fun kept => absurd kept.1 kept.2.1

theorem Sound.fire (sound : Sound usage) : Sound (usage.step .fire) := by
  simp only [step, fire_eq]
  refine ⟨sound.generation, sound.numbered, sound.once, sound.slot, ?_⟩
  intro guard cancelled
  cases slot : usage.trigger.slot with
  | none =>
    rw [slot] at cancelled
    exact sound.fired cancelled
  | some newest =>
    rw [slot] at cancelled
    rcases List.mem_insert_iff.mp cancelled with rfl | before
    · exact Nat.le_of_eq (sound.slot.mp slot).1
    · exact sound.fired before

theorem Sound.step (sound : Sound usage) (few : usage.trigger.guards < 2 ^ 64) (event : Event) :
    Sound (usage.step event) := by
  cases event with
  | arm => exact sound.arm
  | drop guard =>
    rw [Usage.step]
    split
    · rename_i live
      exact sound.drop few live
    · exact sound
  | fire => exact sound.fire

theorem sound_run (events : List Event) (few : events.count .arm < 2 ^ 64) :
    Sound (run events) := by
  induction events using List.reverseRecOn with
  | nil => exact ⟨rfl, nofun, List.nodup_nil, by simp [run], nofun⟩
  | append_singleton events event ih =>
    rw [List.count_append] at few
    have fewer : events.count .arm < 2 ^ 64 := by omega
    rw [run_concat]
    exact (ih fewer).step (by rw [guards_run]; exact fewer) event

/-! ## The guard that was armed last -/

def NewestLive (events : List Event) : Prop :=
  ∃ before after, events = before ++ .arm :: after ∧ .arm ∉ after ∧
    guardAfter before ∈ (run events).live

theorem exists_last_arm {events : List Event} (some_ : .arm ∈ events) :
    ∃ before after, events = before ++ .arm :: after ∧ .arm ∉ after := by
  obtain ⟨after, before, reversed, rest⟩ :=
    List.eq_append_cons_of_mem (List.mem_reverse.mpr some_)
  refine ⟨before.reverse, after.reverse, ?_, fun arm => rest (List.mem_reverse.mp arm)⟩
  rw [← List.reverse_reverse events, reversed, List.reverse_append, List.reverse_cons,
    List.append_assoc, List.singleton_append]

theorem count_arm (before after : List Event) :
    (before ++ .arm :: after).count .arm = guardAfter before + after.count .arm := by
  rw [guardAfter_eq, List.count_append, List.count_cons_self]
  omega

theorem newestLive_iff {events : List Event} (sound : Sound (run events)) :
    NewestLive events ↔ (run events).trigger.guards ∈ (run events).live := by
  constructor
  · rintro ⟨before, after, rfl, last, live⟩
    rw [guards_run, count_arm, List.count_eq_zero.mpr last]
    exact live
  · intro live
    have some_ : .arm ∈ events := by
      rw [← List.count_pos_iff, ← guards_run]
      exact (sound.numbered live).1
    obtain ⟨before, after, rfl, last⟩ := exists_last_arm some_
    rw [guards_run, count_arm, List.count_eq_zero.mpr last] at live
    exact ⟨before, after, rfl, last, live⟩

theorem Sound.armed_iff (sound : Sound usage) :
    usage.trigger.armed = true ↔ usage.trigger.guards ∈ usage.live := by
  rw [CancelTrigger.armed_iff]
  constructor
  · rintro ⟨guard, slot⟩
    obtain ⟨rfl, live⟩ := sound.slot.mp slot
    exact live
  · exact fun live => ⟨_, sound.slot.mpr ⟨rfl, live⟩⟩

/-! ## The guards that a fire reaches -/

theorem mem_cancelled_step {event : Event} :
    guard ∈ (usage.step event).trigger.cancelled ↔ guard ∈ usage.trigger.cancelled ∨
      (event = .fire ∧ usage.trigger.slot = some guard) := by
  cases event with
  | arm => simp [step, CancelTrigger.arm]
  | drop other =>
    simp only [step, CancelTrigger.drop]
    split
    · split <;> simp
    · simp
  | fire =>
    simp only [step, fire_eq, true_and]
    cases usage.trigger.slot with
    | none => simp
    | some newest =>
      rw [Option.elim_some, List.mem_insert_iff, Option.some_inj, or_comm, eq_comm]

theorem cancelled_run (events later : List Event)
    (cancelled : guard ∈ (run events).trigger.cancelled) :
    guard ∈ (run (events ++ later)).trigger.cancelled := by
  induction later using List.reverseRecOn with
  | nil =>
    rw [List.append_nil]
    exact cancelled
  | append_singleton later event ih =>
    rw [← List.append_assoc, run_concat]
    exact mem_cancelled_step.mpr (.inl ih)

theorem live_of_step {event : Event} (live : guard ∈ (usage.step event).live) :
    guard ∈ usage.live ∨ (event = .arm ∧ guard = usage.trigger.guards + 1) := by
  cases event with
  | arm =>
    rcases List.mem_append.mp live with before | new
    · exact .inl before
    · exact .inr ⟨rfl, List.mem_singleton.mp new⟩
  | drop other =>
    rw [step] at live
    split at live
    · exact .inl (List.mem_of_mem_erase live)
    · exact .inl live
  | fire => exact .inl live

/-- As long as nothing is armed, the guard that was armed last is the same and no guard is new. -/
theorem foldl_keeps_newest (events : List Event) (quiet : .arm ∉ events) (usage : Usage) :
    (events.foldl step usage).trigger.guards = usage.trigger.guards ∧
      (events.foldl step usage).live ⊆ usage.live := by
  induction events generalizing usage with
  | nil => exact ⟨rfl, List.Subset.refl _⟩
  | cons event rest ih =>
    rw [List.mem_cons, not_or] at quiet
    obtain ⟨same, fewer⟩ := ih quiet.2 (usage.step event)
    have other : [event].count .arm = 0 := by
      rw [List.count_eq_zero, List.mem_singleton]
      exact quiet.1
    rw [List.foldl_cons, same, guards_step, other]
    refine ⟨rfl, fun guard live => ?_⟩
    rcases live_of_step (fewer live) with before | ⟨arm, _⟩
    · exact before
    · exact absurd arm.symm quiet.1

/-- A fire stands before the first arm if it did before, or if it comes next and no arm came. -/
theorem fires_first_concat (events : List Event) (event : Event) :
    .fire ∈ (events ++ [event]).takeWhile (· ≠ .arm) ↔
      .fire ∈ events.takeWhile (· ≠ .arm) ∨ (event = .fire ∧ .arm ∉ events) := by
  induction events with
  | nil => cases event <;> simp
  | cons first rest ih =>
    cases first with
    | arm => simp
    | drop guard => simpa using ih
    | fire => simp

/-- A live guard is cancelled exactly if a fire followed its arm before the next arm. -/
theorem cancelled_iff_fires_first (before after : List Event)
    (few : (before ++ .arm :: after).count .arm < 2 ^ 64)
    (live : guardAfter before ∈ (run (before ++ .arm :: after)).live) :
    guardAfter before ∈ (run (before ++ .arm :: after)).trigger.cancelled ↔
      .fire ∈ after.takeWhile (· ≠ .arm) := by
  induction after using List.reverseRecOn with
  | nil =>
    have fewer : before.count .arm < 2 ^ 64 := by
      rw [count_arm, guardAfter_eq] at few
      omega
    rw [run_concat, mem_cancelled_step]
    constructor
    · rintro (cancelled | ⟨arm, _⟩)
      · have bound := (sound_run before fewer).fired cancelled
        rw [guardAfter_eq, guards_run] at bound
        omega
      · cases arm
    · nofun
  | append_singleton after event ih =>
    rw [← List.cons_append, ← List.append_assoc] at few live ⊢
    have fewer : (before ++ .arm :: after).count .arm < 2 ^ 64 := by
      rw [List.count_append] at few
      omega
    have sound := sound_run _ fewer
    have total : (run (before ++ .arm :: after)).trigger.guards =
        guardAfter before + after.count .arm := by
      rw [guards_run, count_arm]
    rw [run_concat] at live ⊢
    have liveBefore : guardAfter before ∈ (run (before ++ .arm :: after)).live := by
      rcases live_of_step live with before | ⟨_, new⟩
      · exact before
      · omega
    have newest : guardAfter before = (run (before ++ .arm :: after)).trigger.guards ↔
        .arm ∉ after := by
      rw [total, ← List.count_eq_zero]
      omega
    rw [mem_cancelled_step, fires_first_concat, ih fewer liveBefore, sound.slot, newest,
      and_iff_left liveBefore]

/-! ## Fires that change nothing -/

/-- The guard in the slot, if there is one, is already cancelled. -/
def Spent (usage : Usage) : Prop :=
  ∀ guard, usage.trigger.slot = some guard → guard ∈ usage.trigger.cancelled

theorem Spent.fire (spent : Spent usage) : usage.step .fire = usage := by
  obtain ⟨⟨generation, guards, slot, cancelled⟩, live⟩ := usage
  cases slot with
  | none => rfl
  | some newest =>
    have member : newest ∈ cancelled := spent newest rfl
    simp only [step, fire_eq, Option.elim_some, List.insert_of_mem member]

theorem spent_fire (usage : Usage) : Spent (usage.step .fire) := by
  intro guard slot
  simp only [step, fire_eq] at slot
  exact mem_cancelled_step.mpr (.inr ⟨rfl, slot⟩)

theorem Spent.step (spent : Spent usage) {event : Event} (other : event ≠ .arm) :
    Spent (usage.step event) := by
  intro guard slot
  apply mem_cancelled_step.mpr
  left
  apply spent guard
  cases event with
  | arm => exact absurd rfl other
  | drop dropped =>
    simp only [Usage.step, CancelTrigger.drop] at slot
    split at slot
    · split at slot
      · cases slot
      · exact slot
    · exact slot
  | fire =>
    simp only [Usage.step, fire_eq] at slot
    exact slot

theorem spent_run (events between : List Event) (quiet : .arm ∉ between) :
    Spent (run (events ++ .fire :: between)) := by
  induction between using List.reverseRecOn with
  | nil =>
    rw [run_concat]
    exact spent_fire _
  | append_singleton between event ih =>
    rw [List.mem_append, not_or, List.mem_singleton] at quiet
    rw [← List.cons_append, ← List.append_assoc, run_concat]
    exact (ih quiet.1).step (Ne.symm quiet.2)

/-! ## Histories -/

/-- The history of a trigger decides what its guards see: a live guard is cancelled exactly if a fire
followed its arm before the next one; a fire finds a call, and the trigger is armed, exactly as long
as the newest guard is live; a guard starts uncancelled whatever was fired before; a fire after a
fire changes nothing before the next arm; the end of an older call leaves the trigger as it is; and
a cancelled guard stays cancelled. -/
structure Exact (events : List Event) : Prop where
  cancelled : ∀ before after, events = before ++ .arm :: after →
    guardAfter before ∈ (run events).live →
    ((run events).trigger.isCancelled (guardAfter before) = true ↔
      .fire ∈ after.takeWhile (· ≠ .arm))
  fires : (run events).trigger.fire.2 = true ↔ NewestLive events
  armed : (run events).trigger.armed = true ↔ NewestLive events
  fresh : (run (events ++ [.arm])).trigger.isCancelled (guardAfter events) = false
  again : ∀ between, .arm ∉ between →
    run (events ++ .fire :: between ++ [.fire]) = run (events ++ .fire :: between)
  older : ∀ before after, events = before ++ .arm :: after → .arm ∈ after →
    (run (events ++ [.drop (guardAfter before)])).trigger = (run events).trigger
  kept : ∀ guard, (run events).trigger.isCancelled guard = true →
    ∀ later, (run (events ++ later)).trigger.isCancelled guard = true

theorem history_exact (events : List Event) (few : events.count .arm < 2 ^ 64) :
    Exact events := by
  have sound := sound_run events few
  have armed : (run events).trigger.armed = true ↔ NewestLive events :=
    sound.armed_iff.trans (newestLive_iff sound).symm
  constructor
  · rintro before after rfl live
    rw [isCancelled_iff]
    exact cancelled_iff_fires_first before after few live
  · rw [fire_armed]
    exact armed
  · exact armed
  · rw [Bool.eq_false_iff, ne_eq, isCancelled_iff, run_concat, mem_cancelled_step]
    rintro (cancelled | ⟨arm, _⟩)
    · have bound := sound.fired cancelled
      rw [guardAfter_eq, guards_run] at bound
      omega
    · cases arm
  · intro between quiet
    rw [run_concat]
    exact (spent_run events between quiet).fire
  · rintro before after rfl later
    have older : guardAfter before < (run (before ++ .arm :: after)).trigger.guards := by
      have more := List.count_pos_iff.mpr later
      rw [guards_run, count_arm]
      omega
    rw [run_concat, Usage.step]
    split
    · exact sound.drop_older (by rw [guards_run]; exact few) older
    · rfl
  · intro guard cancelled later
    rw [isCancelled_iff] at cancelled ⊢
    exact cancelled_run events later cancelled

section Example

/-- Of three guards the second is fired at while the first is live, and the third is dropped. -/
def overlapping : List Event :=
  [.fire, .arm, .arm, .fire, .arm, .drop 3]

theorem history_exact_overlapping :
    overlapping.count .arm < 2 ^ 64 ∧ (run overlapping).live = [1, 2] ∧
      (run overlapping).trigger.isCancelled 1 = false ∧
      (run overlapping).trigger.isCancelled 2 = true ∧
      (run overlapping).trigger.fire.2 = false ∧
      (run (overlapping ++ [.drop 1])).trigger = (run overlapping).trigger := by
  have few : overlapping.count .arm < 2 ^ 64 := by decide
  have exact_ := history_exact overlapping few
  have first := exact_.cancelled [.fire] [.arm, .fire, .arm, .drop 3] rfl (by decide)
  have second := exact_.cancelled [.fire, .arm] [.fire, .arm, .drop 3] rfl (by decide)
  refine ⟨few, rfl, ?_, second.mpr (by decide), rfl, ?_⟩
  · exact Bool.eq_false_iff.mpr fun cancelled => absurd (first.mp cancelled) (by decide)
  · exact exact_.older [.fire] [.arm, .fire, .arm, .drop 3] rfl (by decide)

end Example

end Usage

end PluginBridge.CancelTrigger
