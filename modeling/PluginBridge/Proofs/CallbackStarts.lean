import PluginBridge.CallbackServer
import PluginBridge.Proofs.Routing
import PluginBridge.Proofs.Sequences

/-! How a callback server gets to serve. All depends on its first start. If that binds its socket,
the server serves what was registered before, and later starts change nothing. If it does not, the
services are lost, and from then on the server claims to have started. -/

namespace PluginBridge

namespace CallbackServer

variable {ς : Type}

/-! ## What the steps before say -/

def Returned (steps : List (Step ς)) (taken : Step ς)
    (result : Except TransportError (Option SocketAddress)) : Prop :=
  ∃ before after, steps = before ++ taken :: after ∧ ((run before).step taken).2 = result

def Registered (steps : List (Step ς)) (endpoint : String) (service : ς) : Prop :=
  Returned steps (.register endpoint service) (.ok none)

def Succeeded (steps : List (Step ς)) : Prop :=
  ∃ bound address, Returned steps (.start bound) (.ok (some address))

/-- What binding the socket came to at the first start, if there was one. -/
def firstStart? (steps : List (Step ς)) : Option (Except IoError SocketAddress) :=
  steps.findSome? fun
    | .start bound => some bound
    | .register .. => none

theorem run_concat (steps : List (Step ς)) (next : Step ς) :
    run (steps ++ [next]) = ((run steps).step next).1 := by
  rw [run, List.foldl_append]
  rfl

theorem not_returned_nil {taken : Step ς} {result : Except TransportError (Option SocketAddress)} :
    ¬ Returned [] taken result := by
  rintro ⟨before, after, same, _⟩
  exact List.append_ne_nil_of_right_ne_nil before (List.cons_ne_nil taken after) same.symm

theorem returned_concat {steps : List (Step ς)} {next taken : Step ς}
    {result : Except TransportError (Option SocketAddress)} :
    Returned (steps ++ [next]) taken result ↔
      Returned steps taken result ∨ (next = taken ∧ ((run steps).step next).2 = result) := by
  constructor
  · rintro ⟨before, after, same, returned⟩
    rcases eq_append_cons_of_concat same with ⟨rfl, rfl, _⟩ | ⟨between, rfl, _⟩
    · exact .inr ⟨rfl, returned⟩
    · exact .inl ⟨before, between, rfl, returned⟩
  · rintro (⟨before, after, rfl, returned⟩ | ⟨rfl, returned⟩)
    · exact ⟨before, after ++ [next], by simp, returned⟩
    · exact ⟨steps, [], rfl, returned⟩

theorem returned_concat_of_ne {steps : List (Step ς)} {next taken : Step ς}
    {result : Except TransportError (Option SocketAddress)}
    (other : ((run steps).step next).2 ≠ result) :
    Returned (steps ++ [next]) taken result ↔ Returned steps taken result := by
  rw [returned_concat, or_iff_left]
  exact fun last => other last.2

theorem succeeded_concat_of_ne {steps : List (Step ς)} {next : Step ς}
    (other : ∀ address, ((run steps).step next).2 ≠ .ok (some address)) :
    Succeeded (steps ++ [next]) ↔ Succeeded steps := by
  simp only [Succeeded, returned_concat_of_ne (other _)]

theorem firstStart?_append (steps later : List (Step ς)) :
    firstStart? (steps ++ later) = (firstStart? steps).or (firstStart? later) :=
  List.findSome?_append

theorem firstStart?_append_of_some {steps : List (Step ς)} {bound : Except IoError SocketAddress}
    (first : firstStart? steps = some bound) (later : List (Step ς)) :
    firstStart? (steps ++ later) = some bound := by
  rw [firstStart?_append, first, Option.some_or]

theorem firstStart?_start {steps : List (Step ς)} (unstarted : firstStart? steps = none)
    (bound : Except IoError SocketAddress) (later : List (Step ς)) :
    firstStart? (steps ++ .start bound :: later) = some bound := by
  rw [firstStart?_append, unstarted]
  rfl

/-! ## What one step does -/

def Holds (steps : List (Step ς)) (services : Registry ς) : Prop :=
  ∀ endpoint service, services.find? endpoint = some service ↔ Registered steps endpoint service

theorem Holds.concat {steps : List (Step ς)} {services : Registry ς} (holds : Holds steps services)
    {next : Step ς} (other : ((run steps).step next).2 ≠ .ok none) :
    Holds (steps ++ [next]) services := by
  intro endpoint service
  rw [holds, Registered, Registered, returned_concat_of_ne other]

theorem Holds.register {steps : List (Step ς)} {services more : Registry ς}
    (holds : Holds steps services) {endpoint : String} {service : ς}
    (added : services.register endpoint service = .ok more)
    (returned : ((run steps).step (.register endpoint service)).2 = .ok none) :
    Holds (steps ++ [.register endpoint service]) more := by
  intro sought found
  rw [Registry.find?_eq_some_of_register added, holds, Registered, Registered, returned_concat,
    Step.register.injEq, and_iff_left returned]

/-- How a server is after the steps: not started yet, serving since its first start, or spent by a
first start that could not bind its socket. -/
inductive Stage (steps : List (Step ς)) : CallbackServer ς → Prop where
  | fresh {services : Registry ς} (first : firstStart? steps = none)
      (unserved : ¬ Succeeded steps) (holds : Holds steps services) :
      Stage steps ⟨some services, none⟩
  | serving {address : SocketAddress} {services : Registry ς}
      (first : firstStart? steps = some (.ok address)) (succeeded : Succeeded steps)
      (holds : Holds steps services) : Stage steps ⟨none, some (address, services)⟩
  | spent {error : IoError} (first : firstStart? steps = some (.error error))
      (unserved : ¬ Succeeded steps) : Stage steps ⟨none, none⟩

theorem step_of_taken {server : CallbackServer ς} (taken : server.registry = none)
    (next : Step ς) : server.step next = (server, .error .serverStarted) := by
  cases next with
  | register endpoint service => rw [step, register, taken]; rfl
  | start bound => rw [step, start, taken]; rfl

theorem step_register_of_fresh (services : Registry ς) (endpoint : String) (service : ς) :
    step ⟨some services, none⟩ (.register endpoint service) =
      match services.register endpoint service with
      | .ok more => (⟨some more, none⟩, .ok none)
      | .error error => (⟨some services, none⟩, .error error) := by
  simp only [step, register]
  cases services.register endpoint service <;> rfl

theorem step_register_ne_address (server : CallbackServer ς) (endpoint : String) (service : ς)
    (address : SocketAddress) :
    (server.step (.register endpoint service)).2 ≠ .ok (some address) := by
  simp only [step]
  cases (server.register endpoint service).2 <;> simp [Except.map]

section Step

variable {steps : List (Step ς)} {services : Registry ς}

theorem Stage.concat_of_taken {server : CallbackServer ς} (stage : Stage steps server)
    (held : run steps = server) (taken : server.registry = none) (next : Step ς) :
    Stage (steps ++ [next]) (server.step next).1 := by
  have refused : ((run steps).step next).2 = .error .serverStarted := by
    rw [held, step_of_taken taken]
  have unchanged : Succeeded (steps ++ [next]) ↔ Succeeded steps :=
    succeeded_concat_of_ne fun address => by simp [refused]
  rw [step_of_taken taken]
  cases stage with
  | fresh => cases taken
  | serving first succeeded holds =>
    exact .serving (firstStart?_append_of_some first _) (unchanged.mpr succeeded)
      (holds.concat (by simp [refused]))
  | spent first unserved =>
    exact .spent (firstStart?_append_of_some first _) (unchanged.not.mpr unserved)

theorem Stage.concat_register (first : firstStart? steps = none) (unserved : ¬ Succeeded steps)
    (holds : Holds steps services) (held : run steps = ⟨some services, none⟩) (endpoint : String)
    (service : ς) :
    Stage (steps ++ [.register endpoint service])
      (step ⟨some services, none⟩ (.register endpoint service)).1 := by
  have unstarted : firstStart? (steps ++ [.register endpoint service]) = none := by
    rw [firstStart?_append, first]
    rfl
  have still : ¬ Succeeded (steps ++ [.register endpoint service]) := by
    rw [succeeded_concat_of_ne (step_register_ne_address _ endpoint service)]
    exact unserved
  have stepped := step_register_of_fresh services endpoint service
  rw [← held] at stepped ⊢
  cases registered : services.register endpoint service with
  | ok more =>
    simp only [registered] at stepped
    rw [stepped]
    exact .fresh unstarted still (holds.register registered (by rw [stepped]))
  | error error =>
    simp only [registered] at stepped
    rw [stepped, held]
    exact .fresh unstarted still (holds.concat (by simp [stepped]))

theorem Stage.concat_start (first : firstStart? steps = none) (unserved : ¬ Succeeded steps)
    (holds : Holds steps services) (held : run steps = ⟨some services, none⟩)
    (bound : Except IoError SocketAddress) :
    Stage (steps ++ [.start bound]) (step ⟨some services, none⟩ (.start bound)).1 := by
  have started := firstStart?_start first bound []
  cases bound with
  | ok address =>
    have returned : ((run steps).step (.start (.ok address))).2 = .ok (some address) := by
      rw [held]
      rfl
    exact .serving started ⟨_, address, returned_concat.mpr (.inr ⟨rfl, returned⟩)⟩
      (holds.concat (by simp [returned]))
  | error error =>
    have returned : ((run steps).step (.start (.error error))).2 = .error (.io error) := by
      rw [held]
      rfl
    refine .spent started ?_
    rw [succeeded_concat_of_ne fun address => by simp [returned]]
    exact unserved

/-- Every step leads from a stage to a stage. -/
theorem Stage.concat (stage : Stage steps (run steps)) (next : Step ς) :
    Stage (steps ++ [next]) (run (steps ++ [next])) := by
  rw [run_concat]
  -- What was registered is told by what `run steps` returned: the stages have to keep `held`.
  generalize held : run steps = server at stage ⊢
  cases stage with
  | fresh first unserved holds =>
    cases next with
    | register endpoint service => exact concat_register first unserved holds held endpoint service
    | start bound => exact concat_start first unserved holds held bound
  | serving first succeeded holds =>
    exact (Stage.serving first succeeded holds).concat_of_taken held rfl next
  | spent first unserved => exact (Stage.spent first unserved).concat_of_taken held rfl next

end Step

theorem stage_run (steps : List (Step ς)) : Stage steps (run steps) := by
  induction steps using List.reverseRecOn with
  | nil =>
    refine .fresh rfl ?_ ?_
    · rintro ⟨_, _, returned⟩
      exact not_returned_nil returned
    · intro endpoint service
      exact iff_of_false (Option.some_ne_none service).symm not_returned_nil
  | append_singleton steps next ih => exact ih.concat next

/-! ## What a failed start leaves -/

theorem run_of_failed {steps : List (Step ς)} {error : IoError}
    (first : firstStart? steps = some (.error error)) :
    run steps = ⟨none, none⟩ ∧ ¬ Succeeded steps := by
  have stage := stage_run steps
  generalize run steps = server at stage ⊢
  cases stage with
  | fresh unstarted => simp [unstarted] at first
  | serving bound => simp [bound] at first
  | spent _ unserved => exact ⟨rfl, unserved⟩

theorem firstStart?_ne_of_append {steps later : List (Step ς)} {error : IoError}
    (binds : firstStart? (steps ++ later) ≠ some (.error error)) :
    firstStart? steps ≠ some (.error error) := by
  intro first
  exact binds (firstStart?_append_of_some first later)

/-- A server whose registry is there does not claim to have started. -/
theorem step_ne_serverStarted (services : Registry ς) (next : Step ς) :
    (step ⟨some services, none⟩ next).2 ≠ .error .serverStarted := by
  cases next with
  | register endpoint service =>
    rw [step_register_of_fresh, Registry.register]
    split_ifs <;> simp
  | start bound => cases bound <;> simp [step, start, Except.map]

/-- A start that cannot bind its socket costs nothing: server and registry are as before, no step is
refused as too late unless a start has succeeded, and the next start serves all that was
registered. -/
structure Retriable (steps : List (Step ς)) : Prop where
  restores : ∀ before error after, steps = before ++ .start (.error error) :: after →
    run (before ++ [.start (.error error)]) = run before
  refuses : ∀ before next after, steps = before ++ next :: after →
    ((run before).step next).2 = .error .serverStarted → Succeeded before
  serves : ∀ before address after, steps = before ++ .start (.ok address) :: after →
    ¬ Succeeded before →
      ((run before).step (.start (.ok address))).2 = .ok (some address) ∧
      ∃ services, (run (before ++ [.start (.ok address)])).accept? address = some services ∧
        Holds before services

/-- If the first start of the steps binds, the server is fresh or serves before each of them. -/
theorem fresh_or_serving {before after : List (Step ς)} {next : Step ς}
    (binds : ∀ error, firstStart? (before ++ next :: after) ≠ some (.error error)) :
    (∃ services, run before = ⟨some services, none⟩ ∧ firstStart? before = none ∧
      Holds before services) ∨
    ((run before).registry = none ∧ Succeeded before) := by
  have stage := stage_run before
  generalize run before = server at stage ⊢
  cases stage with
  | @fresh services first _ holds => exact .inl ⟨services, rfl, first, holds⟩
  | serving _ succeeded => exact .inr ⟨rfl, succeeded⟩
  | spent first => exact absurd first (firstStart?_ne_of_append (binds _))

theorem retriable_of_binds {steps : List (Step ς)}
    (binds : ∀ error, firstStart? steps ≠ some (.error error)) : Retriable steps where
  restores := by
    rintro before error after rfl
    rw [run_concat]
    rcases fresh_or_serving binds with ⟨services, held, first, _⟩ | ⟨taken, _⟩
    · exact absurd (firstStart?_start first _ after) (binds error)
    · rw [step_of_taken taken]
  refuses := by
    rintro before next after rfl refused
    rcases fresh_or_serving binds with ⟨services, held, _⟩ | ⟨_, succeeded⟩
    · rw [held] at refused
      exact absurd refused (step_ne_serverStarted services next)
    · exact succeeded
  serves := by
    rintro before address after rfl unserved
    rcases fresh_or_serving binds with ⟨services, held, _, holds⟩ | ⟨_, succeeded⟩
    · rw [run_concat, held]
      exact ⟨rfl, services, if_pos rfl, holds⟩
    · exact absurd succeeded unserved

theorem Retriable.binds {steps : List (Step ς)} (retriable : Retriable steps) (error : IoError) :
    firstStart? steps ≠ some (.error error) := by
  intro first
  obtain ⟨before, next, after, rfl, chosen, earlier⟩ := List.findSome?_eq_some_iff.mp first
  cases next with
  | register => cases chosen
  | start bound =>
    obtain rfl := Option.some.inj chosen
    have unstarted : firstStart? before = none := List.findSome?_eq_none_iff.mpr earlier
    have restored := retriable.restores before error after rfl
    have failed := firstStart?_start unstarted (.error error) []
    have stage := stage_run before
    rw [← restored, (run_of_failed failed).1] at stage
    cases stage with
    | spent started => simp [unstarted] at started

/-- A failed start costs nothing exactly if it is not the first. If the first start fails, no start
ever succeeds and nothing is served, but whatever follows is refused as if the server had
started. -/
theorem retriable_iff_first_binds (steps : List (Step ς)) :
    (Retriable steps ↔ ∀ error, firstStart? steps ≠ some (.error error)) ∧
      ∀ error, firstStart? steps = some (.error error) →
        ¬ Succeeded steps ∧
          (∀ next, (run steps).step next = (run steps, .error .serverStarted)) ∧
          ∀ address, (run steps).accept? address = none := by
  refine ⟨⟨Retriable.binds, retriable_of_binds⟩, ?_⟩
  intro error first
  obtain ⟨spent, unserved⟩ := run_of_failed first
  rw [spent]
  exact ⟨unserved, step_of_taken rfl, fun _ => rfl⟩

section Example

def addressInUse : IoError :=
  .other "Address already in use (os error 98)"

theorem retriable_iff_first_binds_late :
    Retriable [.register "Log" (), .start (.ok .loopback), .start (.error addressInUse)] :=
  (retriable_iff_first_binds _).1.mpr fun _ failed => nomatch failed

/-- The first start cannot bind its socket; a service more, and another start. -/
def secondTry : List (Step Unit) :=
  [.register "Log" (), .start (.error addressInUse), .register "Status" (), .start (.ok .loopback)]

/-- No start has succeeded, yet the registration and the start behind the failed one are refused as
if one had, and nothing is served. -/
theorem secondTry_refused :
    ¬ Succeeded (secondTry.take 2) ∧
    run (secondTry.take 2) ≠ run (secondTry.take 1) ∧
    ((run (secondTry.take 2)).step (.register "Status" ())).2 = .error .serverStarted ∧
    ((run (secondTry.take 3)).step (.start (.ok .loopback))).2 = .error .serverStarted ∧
    (run secondTry).accept? .loopback = none ∧
    ¬ Retriable secondTry := by
  have failed : firstStart? (secondTry.take 2) = some (.error addressInUse) := rfl
  have lost : (run (secondTry.take 2)).registry = none ∧
      (run (secondTry.take 1)).registry = some [("Log", ())] := ⟨rfl, rfl⟩
  refine ⟨(run_of_failed failed).2, ?_, rfl, rfl, rfl, fun retriable => ?_⟩
  · intro same
    rw [same, lost.2] at lost
    exact Option.some_ne_none _ lost.1
  · exact retriable.binds addressInUse rfl

end Example

end CallbackServer

end PluginBridge
