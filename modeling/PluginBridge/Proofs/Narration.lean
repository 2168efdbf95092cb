import Mathlib.Data.List.Forall2
import PluginBridge.Proofs.Sequences
import PluginBridge.Sample.Narration

/-! The echo builder narrates what it was asked for last. It keeps a plan, and takes one with an
empty target for no plan at all, so it narrates exactly if the target that was asked for last is not
empty. -/

namespace PluginBridge

open Rehearsal (HostCall)

variable {τ : Type}

/-! ## Telling texts one after another -/

/-- What comes behind texts is told if all of them were taken. -/
theorem Host.tellEach_append (host : Host τ) (first later : List (Sink × String)) (state : τ) :
    host.tellEach (first ++ later) state =
      match host.tellEach first state with
      | (next, calls, .error failure) => (next, calls, .error failure)
      | (next, calls, .ok ()) =>
        let told := host.tellEach later next
        (told.1, calls ++ told.2.1, told.2.2) := by
  induction first generalizing state with
  | nil => rfl
  | cons entry rest ih =>
    obtain ⟨sink, text⟩ := entry
    rw [List.cons_append, tellEach, tellEach]
    obtain ⟨next, answer⟩ := host.tell sink text state
    cases answer with
    | error failure => rfl
    | ok =>
      dsimp only
      rw [ih next]
      obtain ⟨last, calls, result⟩ := host.tellEach rest next
      cases result <;> rfl

namespace Conversation

/-- The conversation consists in telling the texts, until one of them fails. -/
def Tells (conversation : OrFail Unit) (texts : List (Sink × String)) : Prop :=
  ∀ (τ : Type) (host : Host τ) (state : τ) (taken : List HostCall),
    let told := host.tellEach texts state
    conversation.run.hold host.recording (state, taken) =
      ((told.1, taken ++ told.2.1), told.2.2)

theorem tells_pure : Tells (pure ()) [] := by
  intro τ host state taken told
  change ((state, taken), _) = ((state, taken ++ []), _)
  rw [List.append_nil]
  rfl

theorem tells_say (sink : Sink) (text : String) : Tells (say sink text) [(sink, text)] := by
  intro τ host state taken told
  have answered : told = ((host.tell sink text state).1, [.tell sink text],
      (host.tell sink text state).2) := by
    change host.tellEach _ _ = _
    rw [Host.tellEach]
    obtain ⟨next, answer⟩ := host.tell sink text state
    cases answer <;> rfl
  rw [answered]
  rfl

/-- A failure ends a conversation, and else it goes on. -/
theorem hold_andThen {α β : Type} (first : OrFail α) (next : α → OrFail β) (host : Host τ)
    (state : τ) :
    (first >>= next).run.hold host state =
      match first.run.hold host state with
      | (later, .error failure) => (later, .error failure)
      | (later, .ok a) => (next a).run.hold host later := by
  change (Conversation.bind first.run _).hold host state = _
  rw [hold_bind]
  obtain ⟨later, answer⟩ := first.run.hold host state
  cases answer <;> rfl

theorem Tells.andThen {first last : OrFail Unit} {texts later : List (Sink × String)}
    (tells : Tells first texts) (behind : Tells last later) :
    Tells (first >>= fun _ => last) (texts ++ later) := by
  intro τ host state taken told
  rw [hold_andThen, tells, show told = _ from host.tellEach_append texts later state]
  obtain ⟨next, calls, result⟩ := host.tellEach texts state
  cases result with
  | error failure => rfl
  | ok =>
    dsimp only
    rw [behind, List.append_assoc]

end Conversation

namespace EchoBuilder

open Conversation

/-! ## What is asked for -/

theorem stepText_eq_ok_iff {step : Value} {text : String} :
    stepText step = .ok text ↔ step = .string text := by
  cases step <;> simp [stepText, Value.text?]

theorem mapM_stepText_eq_ok_iff {items : List Value} {steps : List String} :
    items.mapM stepText = .ok steps ↔ items = steps.map .string := by
  rw [mapM_eq_ok_iff, ← List.forall₂_eq_eq_eq, ← List.forall₂_eq_eq_eq, List.forall₂_map_left_iff,
    List.forall₂_map_right_iff, List.forall₂_map_right_iff]
  simp only [stepText_eq_ok_iff]

theorem stepsOf_eq_ok_iff {listed : Option Value} {steps : List String} :
    stepsOf listed = .ok steps ↔ listed = some (.list (steps.map .string)) ∨
      listed = some (.tuple (steps.map .string)) ∨ (listed = none ∧ steps = ["compile"]) := by
  constructor
  · intro read
    unfold stepsOf at read
    split at read
    · exact .inr (.inr ⟨rfl, (Except.ok.inj read).symm⟩)
    · exact .inl (by rw [mapM_stepText_eq_ok_iff.mp read])
    · exact .inr (.inl (by rw [mapM_stepText_eq_ok_iff.mp read]))
    · cases read
  · rintro (rfl | rfl | ⟨rfl, rfl⟩)
    · exact mapM_stepText_eq_ok_iff.mpr rfl
    · exact mapM_stepText_eq_ok_iff.mpr rfl
    · rfl

theorem planOf_eq_ok_iff {config : Value} {plan : Plan} :
    planOf config = .ok plan ↔ Asks config plan := by
  constructor
  · intro read
    unfold planOf at read
    split at read
    · cases read
    next target found =>
      obtain ⟨value, targeted, text⟩ := Option.bind_eq_some_iff.mp found
      obtain rfl : value = .string target := by cases value <;> simp_all [Value.text?]
      cases listed : stepsOf (config.get? "steps") with
      | error failure =>
        rw [listed] at read
        cases read
      | ok steps =>
        rw [listed] at read
        obtain rfl := Except.ok.inj read
        rcases stepsOf_eq_ok_iff.mp listed with list | tuple | ⟨absent, rfl⟩
        · exact .list targeted list
        · exact .tuple targeted tuple
        · exact .unlisted targeted absent
  · rintro (⟨targeted, listed⟩ | ⟨targeted, listed⟩ | ⟨targeted, absent⟩)
    · rw [planOf, targeted, listed]
      change Except.map _ (stepsOf _) = _
      rw [stepsOf_eq_ok_iff.mpr (.inl rfl)]
      rfl
    · rw [planOf, targeted, listed]
      change Except.map _ (stepsOf _) = _
      rw [stepsOf_eq_ok_iff.mpr (.inr (.inl rfl))]
      rfl
    · rw [planOf, targeted, absent]
      rfl

/-! ## What is kept -/

theorem prepare_of_asks {config : Value} {plan : Plan} (asks : Asks config plan) (before : Plan) :
    prepare config before = (plan, .ok ()) := by
  rw [prepare, planOf_eq_ok_iff.mpr asks]

theorem prepare_of_not_asks {config : Value} (idle : ∀ plan, ¬ Asks config plan) (before : Plan) :
    ∃ failure, prepare config before = (before, .error failure) := by
  unfold prepare
  cases read : planOf config with
  | ok plan => exact absurd (planOf_eq_ok_iff.mp read) (idle plan)
  | error failure => exact ⟨failure, rfl⟩

theorem prepareAll_concat (configs : List Value) (config : Value) :
    prepareAll (configs ++ [config]) = (prepare config (prepareAll configs)).1 := by
  rw [prepareAll, List.foldl_append]
  rfl

theorem lastAsked_concat {configs : List Value} {config : Value} {plan : Plan} :
    LastAsked (configs ++ [config]) plan ↔
      Asks config plan ∨ ((∀ other, ¬ Asks config other) ∧ LastAsked configs plan) :=
  last_concat

theorem prepareAll_of_lastAsked {configs : List Value} {plan : Plan}
    (last : LastAsked configs plan) : prepareAll configs = plan := by
  induction configs using List.reverseRecOn with
  | nil =>
    obtain ⟨before, config, after, same, _⟩ := last
    exact absurd same.symm (List.append_ne_nil_of_right_ne_nil before (List.cons_ne_nil config after))
  | append_singleton configs config ih =>
    rw [prepareAll_concat]
    rcases lastAsked_concat.mp last with asks | ⟨idle, earlier⟩
    · rw [prepare_of_asks asks]
    · obtain ⟨failure, failed⟩ := prepare_of_not_asks idle (prepareAll configs)
      rw [failed]
      exact ih earlier

theorem lastAsked_or_fresh (configs : List Value) :
    (∃ plan, LastAsked configs plan) ∨ prepareAll configs = {} := by
  induction configs using List.reverseRecOn with
  | nil => exact .inr rfl
  | append_singleton configs config ih =>
    by_cases asked : ∃ plan, Asks config plan
    · obtain ⟨plan, asks⟩ := asked
      exact .inl ⟨plan, lastAsked_concat.mpr (.inl asks)⟩
    · have idle := not_exists.mp asked
      rcases ih with ⟨plan, earlier⟩ | fresh
      · exact .inl ⟨plan, lastAsked_concat.mpr (.inr ⟨idle, earlier⟩)⟩
      · obtain ⟨failure, failed⟩ := prepare_of_not_asks idle (prepareAll configs)
        rw [prepareAll_concat, failed]
        exact .inr fresh

/-! ## What is told -/

theorem tells_narrateSteps (steps : List String) :
    Tells (narrateSteps steps)
      (steps.flatMap fun step => [(.progress, step), (.message, s!"{step}: done")]) := by
  induction steps with
  | nil => exact tells_pure
  | cons step rest ih => exact (tells_say .progress step).andThen ((tells_say .message _).andThen ih)

theorem hold_narrate {plan : Plan} (targeted : plan.target ≠ "") (host : Host τ) (state : τ) :
    let told := plan.narrated host state
    (narrate plan).run.hold host.recording (state, []) = ((told.1, told.2.1), told.2.2) := by
  intro told
  have tells (name : String) : Tells _ (plan.script name) :=
    (tells_say .say s!"building {name} for {plan.target}").andThen
      ((tells_narrateSteps plan.steps).andThen
        (tells_say .say s!"{name}: {plan.steps.length} steps finished"))
  have named : (name.run : Conversation _).hold host.recording (state, []) =
      (((host.name state).1, [.askName]), (host.name state).2) := rfl
  rw [narrate, if_neg targeted, hold_andThen, named]
  change _ = (((plan.narrated host state).1, (plan.narrated host state).2.1), (plan.narrated host state).2.2)
  unfold Plan.narrated
  obtain ⟨next, answer⟩ := host.name state
  cases answer with
  | error failure => rfl
  | ok name => exact tells name τ host next [.askName]

theorem hold_narrate_of_empty {plan : Plan} (empty : plan.target = "") (host : Host τ) (state : τ) :
    let told := refused host state
    (narrate plan).run.hold host.recording (state, []) = ((told.1, told.2.1), told.2.2) := by
  intro told
  rw [narrate, if_pos empty, hold_andThen, tells_say]
  change _ = (((refused host state).1, (refused host state).2.1), (refused host state).2.2)
  unfold refused
  obtain ⟨last, calls, result⟩ := host.tellEach [(.error, "builder was not prepared")] state
  cases result <;> rfl

theorem runAfter_eq (configs : List Value) (host : Host τ) (state : τ) :
    runAfter configs host state =
      let ran := (narrate (prepareAll configs)).run.hold host.recording (state, [])
      (ran.1.1, ran.1.2, ran.2) := by
  have held := hold_bind (narrate (prepareAll configs)).run
    (fun result => .done (prepareAll configs, result)) host.recording (state, [])
  change (_, _, _) = _
  exact congrArg (fun ran => (ran.1.1, ran.1.2, ran.2.2)) held

/-- A host that is told that there is no plan is not asked for its name. -/
theorem refused_ne_narrated (plan : Plan) (host : Host τ) (state : τ) :
    refused host state ≠ plan.narrated host state := by
  intro same
  have first : (refused host state).2.1.head? = some (.tell .error "builder was not prepared") := by
    unfold refused Host.tellEach
    obtain ⟨next, answer⟩ := host.tell .error "builder was not prepared" state
    cases answer <;> rfl
  have asked : (plan.narrated host state).2.1.head? = some .askName := by
    unfold Plan.narrated
    obtain ⟨next, answer⟩ := host.name state
    cases answer <;> rfl
  rw [same, asked] at first
  cases first

/-- A configuration that asks for a plan is taken, and another one changes nothing. A run asks the
host for its name and tells it the plan that was asked for last, up to the first call that fails,
exactly if the target of the plan is not empty. If it is empty, or if no plan was asked for, the run
claims that none was. -/
theorem run_narrates_iff (configs : List Value) (host : Host τ) (state : τ) :
    (∀ config held,
      (∃ plan, Asks config plan ∧ echoBuilder.prepare config held = (plan, .ok ())) ∨
      ((∀ plan, ¬ Asks config plan) ∧
        ∃ failure, echoBuilder.prepare config held = (held, .error failure))) ∧
    (∀ plan, LastAsked configs plan →
      (runAfter configs host state = plan.narrated host state ↔ plan.target ≠ "")) ∧
    ((∀ plan, LastAsked configs plan → plan.target = "") →
      runAfter configs host state = refused host state) := by
  have refuses (empty : (prepareAll configs).target = "") :
      runAfter configs host state = refused host state := by
    rw [runAfter_eq, hold_narrate_of_empty empty]
  refine ⟨?_, ?_, ?_⟩
  · intro config held
    by_cases asked : ∃ plan, Asks config plan
    · obtain ⟨plan, asks⟩ := asked
      exact .inl ⟨plan, asks, prepare_of_asks asks held⟩
    · exact .inr ⟨not_exists.mp asked, prepare_of_not_asks (not_exists.mp asked) held⟩
  · intro plan last
    obtain rfl := prepareAll_of_lastAsked last
    constructor
    · intro narrated empty
      exact refused_ne_narrated _ host state ((refuses empty).symm.trans narrated)
    · intro targeted
      rw [runAfter_eq, hold_narrate targeted]
  · intro empty
    rcases lastAsked_or_fresh configs with ⟨plan, last⟩ | fresh
    · obtain rfl := prepareAll_of_lastAsked last
      exact refuses (empty _ last)
    · exact refuses (by rw [fresh])

section Example

open Rehearsal (recordingHost)

/-- The second configuration asks for nothing. -/
def asked : List Value :=
  [.map [("steps", .tuple [.string "link", .string "strip"]), ("target", .string "arm")], .null]

def stuckHost : Host (List HostCall) :=
  recordingHost "demo" fun
    | some .progress => some (.context "no display" (.text "pipe"))
    | _ => none

theorem run_narrates_asked :
    LastAsked asked ⟨"arm", ["link", "strip"]⟩ ∧ (runAfter asked stuckHost []).2 =
      ([.askName, .tell .say "building demo for arm", .tell .progress "link"],
        .error (.context "no display" (.text "pipe"))) := by
  obtain ⟨_, narrates, _⟩ := run_narrates_iff asked stuckHost []
  have last : LastAsked asked ⟨"arm", ["link", "strip"]⟩ := by
    refine ⟨[], _, [.null], rfl, .tuple rfl rfl, ?_⟩
    rw [List.forall_mem_singleton]
    rintro other (⟨targeted, _⟩ | ⟨targeted, _⟩ | ⟨targeted, _⟩) <;> cases targeted
  rw [(narrates _ last).mpr (by decide)]
  exact ⟨last, rfl⟩

def targetless : Value :=
  .object [("target", .string "")]

/-- The builder is prepared, and a run claims that it was not, to a host that fails nothing. -/
theorem targetless_refused :
    (echoBuilder.prepare targetless {}).2 = .ok () ∧
      LastAsked [targetless] ⟨"", ["compile"]⟩ ∧
      (runAfter [targetless] (recordingHost "demo" fun _ => none) []).2 =
        ([.tell .error "builder was not prepared"], .error (.text "run called before prepare")) :=
  ⟨rfl, ⟨[], _, [], rfl, .unlisted rfl rfl, List.forall_mem_nil _⟩, rfl⟩

end Example

end EchoBuilder

end PluginBridge
