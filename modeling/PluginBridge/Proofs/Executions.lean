import PluginBridge.Datasource.Executions
import PluginBridge.Proofs.CancelTrigger
import PluginBridge.Rehearsal.ScriptedDatasource

/-! Which of the executions that overlap a cancel reaches: the one that began last, if it still
runs, and otherwise none. -/

namespace PluginBridge

open CancelTrigger (Usage)

namespace Executions

variable {σ : Type} {codec : Codec} {datasource : Datasource σ} {executions : Executions σ}

def Event.begins : Event σ → Bool
  | .begin => true
  | _ => false

/-- The guard of the execution that began last; zero if none has begun. -/
def newest (executions : Executions σ) : Nat :=
  executions.usage.trigger.guards

/-- A cancel that comes next finds an armed execution, and behind it an execution that runs is
cancelled. -/
def CancelHeard (codec : Codec) (datasource : Datasource σ) (executions : Executions σ) : Prop :=
  executions.fires = true ∧ ∃ guard ∈ executions.running,
    (executions.step codec datasource .cancel).usage.trigger.isCancelled guard = true

/-- No execution begins while another one runs. -/
def Disjoint (codec : Codec) (datasource : Datasource σ) (start : Executions σ)
    (events : List (Event σ)) : Prop :=
  ∀ before after, events = before ++ .begin :: after →
    (start.run codec datasource before).running = []

theorem run_concat (executions : Executions σ) (events : List (Event σ)) (event : Event σ) :
    executions.run codec datasource (events ++ [event]) =
      (executions.run codec datasource events).step codec datasource event := by
  rw [run, List.foldl_append]
  rfl

/-! ## One call at a time -/

/-- An execution with nothing in between is a run of one. -/
theorem executeArmed_run (codec : Codec) (datasource : Datasource σ) (executions : Executions σ) :
    ∃ last, executions.run codec datasource
        [.begin, .work (datasource.execute executions.state).1,
          .finish executions.usage.trigger.arm.2 (datasource.execute executions.state).2] = last ∧
      datasource.executeArmed codec executions.hosted =
        (last.hosted, Datasource.executed codec (datasource.execute executions.state).2) ∧
      last.replies = executions.replies ++
        [(executions.usage.trigger.arm.2,
          Datasource.executed codec (datasource.execute executions.state).2)] := by
  have armed : executions.usage.trigger.arm.2 ∈
      executions.usage.live ++ [executions.usage.trigger.arm.2] :=
    List.mem_append_right _ (List.mem_singleton_self _)
  refine ⟨_, rfl, ?_, ?_⟩
  · simp only [run, List.foldl_cons, List.foldl_nil, step, running, leave, Usage.step, if_pos armed]
    rfl
  · simp only [run, List.foldl_cons, List.foldl_nil, step, running, leave, Usage.step, if_pos armed]
    rfl

theorem answer_cancel (codec : Codec) (datasource : Datasource σ) (executions : Executions σ)
    (body : Bytes) : (datasource.answer codec "Cancel" body executions.hosted).1 =
      (executions.step codec datasource .cancel).hosted :=
  rfl

/-! ## The use of the trigger -/

/-- What an event does with the trigger: nothing, or one event of its own. -/
theorem usage_step (codec : Codec) (datasource : Datasource σ) (executions : Executions σ)
    (event : Event σ) :
    ∃ uses : List CancelTrigger.Event, uses.count .arm = [event].countP Event.begins ∧
      (executions.step codec datasource event).usage = uses.foldl Usage.step executions.usage := by
  cases event with
  | begin => exact ⟨[.arm], rfl, rfl⟩
  | work state => exact ⟨[], rfl, rfl⟩
  | finish guard result =>
    rw [step]
    split
    · exact ⟨[.drop guard], rfl, rfl⟩
    · exact ⟨[], rfl, rfl⟩
  | interrupt guard =>
    rw [step]
    split
    · exact ⟨[.drop guard], rfl, rfl⟩
    · exact ⟨[], rfl, rfl⟩
  | stop guard => exact ⟨[.drop guard], rfl, rfl⟩
  | cancel => exact ⟨[.fire], rfl, rfl⟩

theorem exists_uses (codec : Codec) (datasource : Datasource σ) (state : σ)
    (events : List (Event σ)) :
    ∃ uses : List CancelTrigger.Event, uses.count .arm = events.countP Event.begins ∧
      (run codec datasource { state } events).usage = Usage.run uses := by
  induction events using List.reverseRecOn with
  | nil => exact ⟨[], rfl, rfl⟩
  | append_singleton events event ih =>
    obtain ⟨uses, counted, same⟩ := ih
    obtain ⟨more, added, later⟩ :=
      usage_step codec datasource (run codec datasource { state } events) event
    refine ⟨uses ++ more, ?_, ?_⟩
    · rw [List.count_append, List.countP_append, counted, added]
    · rw [run_concat, later, same, Usage.run, Usage.run, List.foldl_append]

theorem sound_run (codec : Codec) (datasource : Datasource σ) (state : σ)
    (events : List (Event σ)) (few : events.countP Event.begins < 2 ^ 64) :
    (run codec datasource { state } events).usage.Sound := by
  obtain ⟨uses, counted, same⟩ := exists_uses codec datasource state events
  rw [same]
  exact Usage.sound_run uses (counted ▸ few)

/-! ## The execution that a cancel reaches -/

theorem fires_iff (sound : executions.usage.Sound) :
    executions.fires = true ↔ executions.newest ∈ executions.running := by
  rw [fires, CancelTrigger.fire_armed]
  exact sound.armed_iff

theorem isCancelled_cancel (sound : executions.usage.Sound) (guard : Nat) :
    (executions.step codec datasource .cancel).usage.trigger.isCancelled guard = true ↔
      executions.usage.trigger.isCancelled guard = true ∨
        (guard = executions.newest ∧ executions.newest ∈ executions.running) := by
  rw [CancelTrigger.isCancelled_iff, CancelTrigger.isCancelled_iff, step, Usage.mem_cancelled_step,
    sound.slot, newest, running]
  constructor
  · rintro (before | ⟨_, rfl, live⟩)
    · exact .inl before
    · exact .inr ⟨rfl, live⟩
  · rintro (before | ⟨rfl, live⟩)
    · exact .inl before
    · exact .inr ⟨rfl, rfl, live⟩

theorem cancelHeard_iff (sound : executions.usage.Sound) :
    executions.CancelHeard codec datasource ↔ executions.newest ∈ executions.running := by
  constructor
  · exact fun heard => (fires_iff sound).mp heard.1
  · intro runs
    exact ⟨(fires_iff sound).mpr runs, executions.newest, runs,
      (isCancelled_cancel sound _).mpr (.inr ⟨rfl, runs⟩)⟩

/-- An execution that a cancel reaches can end with the reply that says so. -/
theorem interrupt_cancel (sound : executions.usage.Sound)
    (runs : executions.newest ∈ executions.running) :
    ((executions.step codec datasource .cancel).step codec datasource
        (.interrupt executions.newest)).replies =
      executions.replies ++ [(executions.newest, Datasource.interrupted)] := by
  have cancelled : (executions.step codec datasource .cancel).usage.trigger.isCancelled
      executions.newest = true :=
    (isCancelled_cancel sound _).mpr (.inr ⟨rfl, runs⟩)
  rw [step, if_pos ⟨runs, cancelled⟩]
  rfl

/-! ## Executions that do not overlap -/

/-- An event that begins no execution starts none and keeps which one began last. -/
theorem step_keeps_newest (codec : Codec) (datasource : Datasource σ) (executions : Executions σ)
    {event : Event σ} (other : event.begins = false) :
    (executions.step codec datasource event).newest = executions.newest ∧
      (executions.step codec datasource event).running ⊆ executions.running := by
  obtain ⟨uses, counted, same⟩ := usage_step codec datasource executions event
  rw [List.countP_singleton, other] at counted
  rw [newest, newest, running, running, same]
  exact Usage.foldl_keeps_newest uses (List.count_eq_zero.mp counted) executions.usage

/-- The last execution to begin keeps its place until another one begins. -/
theorem newest_run (start : Executions σ) (before after : List (Event σ))
    (others : ∀ event ∈ after, event.begins = false) :
    (start.run codec datasource (before ++ .begin :: after)).newest =
      (start.run codec datasource before).usage.trigger.arm.2 := by
  induction after using List.reverseRecOn with
  | nil =>
    rw [run_concat]
    rfl
  | append_singleton after event ih =>
    have last := others event (by simp)
    have earlier := ih fun event member => others event (List.mem_append_left _ member)
    rw [← List.cons_append, ← List.append_assoc, run_concat,
      (step_keeps_newest _ _ _ last).1, earlier]

theorem running_disjoint {start : Executions σ} (idle : start.running = [])
    (events : List (Event σ)) (disjoint : Disjoint codec datasource start events) :
    ∀ guard ∈ (start.run codec datasource events).running,
      guard = (start.run codec datasource events).newest := by
  induction events using List.reverseRecOn with
  | nil =>
    intro guard runs
    rw [show start.run codec datasource [] = start from rfl, idle] at runs
    cases runs
  | append_singleton events event ih =>
    have earlier : Disjoint codec datasource start events := by
      rintro before after rfl
      apply disjoint before (after ++ [event])
      rw [List.append_assoc, List.cons_append]
    intro guard runs
    rw [run_concat] at runs ⊢
    cases begins : event.begins with
    | true =>
      obtain rfl : event = .begin := by
        cases event <;> first | rfl | cases begins
      have alone : (start.run codec datasource events).usage.live = [] :=
        disjoint events [] rfl
      rw [running, step, Usage.step, alone] at runs
      exact List.mem_singleton.mp runs
    | false =>
      obtain ⟨same, fewer⟩ :=
        step_keeps_newest codec datasource (start.run codec datasource events) begins
      rw [same]
      exact ih earlier guard (fewer runs)

/-- A cancel reaches the execution that began last, if that one still runs, and no other; so it is
heard exactly then. If no execution begins while another one runs, every cancel is heard that comes
while one runs. The execution that began last is the one that no other followed. -/
theorem cancel_reaches_newest (codec : Codec) (datasource : Datasource σ) (state : σ)
    (events : List (Event σ)) (few : events.countP Event.begins < 2 ^ 64)
    (executions : Executions σ) (ran : run codec datasource { state } events = executions) :
    (executions.fires = true ↔ executions.newest ∈ executions.running) ∧
      (∀ guard, (executions.step codec datasource .cancel).usage.trigger.isCancelled guard = true ↔
        executions.usage.trigger.isCancelled guard = true ∨
          (guard = executions.newest ∧ executions.newest ∈ executions.running)) ∧
      (executions.CancelHeard codec datasource ↔ executions.newest ∈ executions.running) ∧
      (Disjoint codec datasource { state } events → executions.running ≠ [] →
        executions.CancelHeard codec datasource) ∧
      (∀ before after, events = before ++ .begin :: after →
        (∀ event ∈ after, event.begins = false) →
        executions.newest = (run codec datasource { state } before).usage.trigger.arm.2) := by
  have sound := sound_run codec datasource state events few
  rw [ran] at sound
  refine ⟨fires_iff sound, isCancelled_cancel sound, cancelHeard_iff sound, ?_, ?_⟩
  · intro disjoint busy
    obtain ⟨guard, runs⟩ := List.exists_mem_of_ne_nil _ busy
    have last := running_disjoint rfl events disjoint
    rw [ran] at last
    rw [cancelHeard_iff sound, ← last guard runs]
    exact runs
  · rintro before after rfl others
    rw [← ran, newest_run _ before after others]

section Example

open Rehearsal (ScriptedDatasource scriptedDatasource)

/-- Two executions overlap, and that of `guard` ends. -/
def overlap (guard : Nat) : List (Event ScriptedDatasource) :=
  [.begin, .begin, .finish guard (.ok .null)]

def crossing (guard : Nat) : Executions ScriptedDatasource :=
  run (.ofMode .current) scriptedDatasource { state := {} } (overlap guard)

theorem cancel_reaches_second :
    (crossing 1).running = [2] ∧
      (crossing 1).CancelHeard (.ofMode .current) scriptedDatasource := by
  have few : (overlap 1).countP Event.begins < 2 ^ 64 := by decide
  have reached := cancel_reaches_newest (.ofMode .current) scriptedDatasource {} (overlap 1) few
    (crossing 1) rfl
  exact ⟨rfl, reached.2.2.1.mpr (List.mem_singleton_self 2)⟩

/-- The first execution still runs when the second one has ended, and a cancel is lost. -/
theorem cancel_lost :
    (crossing 2).running = [1] ∧ (crossing 2).fires = false ∧
      ¬ (crossing 2).CancelHeard (.ofMode .current) scriptedDatasource ∧
      ((crossing 2).step (.ofMode .current) scriptedDatasource
        .cancel).usage.trigger.isCancelled 1 = false := by
  have lost : (crossing 2).fires = false := rfl
  refine ⟨rfl, lost, ?_, rfl⟩
  rintro ⟨heard, _⟩
  rw [lost] at heard
  cases heard

end Example

end Executions

end PluginBridge
