import PluginBridge.Datasource.Serving

/-!
# Executions that overlap

Each request is a task of its own, so a served datasource may execute several times at once. An
execution is armed when it begins; then it waits for the datasource or for its guard to be
cancelled, whichever comes first. A task may also be stopped where it is.
-/
namespace PluginBridge

/-- A served datasource, the use that its executions make of the trigger, and the replies of those
that have ended, by their guards. -/
structure Executions (σ : Type) where
  state : σ
  usage : CancelTrigger.Usage := {}
  replies : List (Nat × Bytes × Option Envelope) := []

namespace Executions

variable {σ : Type}

/-- What happens to a served datasource. `work` is what changes the state of the datasource: part of
an execution, or another call. `stop` ends a task without a reply. -/
inductive Event (σ : Type) where
  | begin
  | work (state : σ)
  | finish (guard : Nat) (result : Except Failure Value)
  | interrupt (guard : Nat)
  | stop (guard : Nat)
  | cancel

/-- The guards of the executions that are armed and have not ended. -/
def running (executions : Executions σ) : List Nat :=
  executions.usage.live

def hosted (executions : Executions σ) : HostedDatasource σ :=
  ⟨executions.state, executions.usage.trigger⟩

def leave (executions : Executions σ) (guard : Nat) (reply? : Option (Bytes × Option Envelope)) :
    Executions σ :=
  { executions with
    usage := executions.usage.step (.drop guard)
    replies := executions.replies ++ (reply?.map fun reply => (guard, reply)).toList }

/-- What an event does; a step that an execution cannot take does nothing. -/
def step (codec : Codec) (datasource : Datasource σ) (executions : Executions σ) :
    Event σ → Executions σ
  | .begin => { executions with usage := executions.usage.step .arm }
  | .work state => { executions with state := state }
  | .finish guard result =>
    if guard ∈ executions.running then
      executions.leave guard (some (Datasource.executed codec result))
    else executions
  | .interrupt guard =>
    if guard ∈ executions.running ∧ executions.usage.trigger.isCancelled guard then
      executions.leave guard (some Datasource.interrupted)
    else executions
  | .stop guard => executions.leave guard none
  | .cancel =>
    { executions with
      state := datasource.cancel executions.state
      usage := executions.usage.step .fire }

def run (codec : Codec) (datasource : Datasource σ) (executions : Executions σ)
    (events : List (Event σ)) : Executions σ :=
  events.foldl (step codec datasource) executions

/-- Whether a cancel that comes next finds an armed execution. -/
def fires (executions : Executions σ) : Bool :=
  executions.usage.trigger.fire.2

end Executions

end PluginBridge
