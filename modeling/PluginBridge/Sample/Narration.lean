import PluginBridge.Builder.Transcript
import PluginBridge.Sample.EchoBuilder

/-!
# Narrations

What the echo builder is asked for and what its host hears of it, said without the builder: the
texts that the host is told are a list, and they end with the first that the host fails.
-/
namespace PluginBridge

open Rehearsal (HostCall)

variable {τ : Type}

/-- Tells a host texts in their order, up to the first that it fails: the state of the host then,
the calls that it took, and what they came to. -/
def Host.tellEach (host : Host τ) : List (Sink × String) → τ →
    τ × List HostCall × Except Failure Unit
  | [], state => (state, [], .ok ())
  | (sink, text) :: rest, state =>
    match host.tell sink text state with
    | (next, .error failure) => (next, [.tell sink text], .error failure)
    | (next, .ok ()) =>
      let (last, calls, result) := host.tellEach rest next
      (last, .tell sink text :: calls, result)

namespace EchoBuilder

/-- A configuration asks for a plan: it has the text of the target, and the texts of the steps in a
list or a tuple. Without steps there is one, to compile. -/
inductive Asks (config : Value) : Plan → Prop where
  | list {target : String} {steps : List String}
      (targeted : config.get? "target" = some (.string target))
      (listed : config.get? "steps" = some (.list (steps.map .string))) : Asks config ⟨target, steps⟩
  | tuple {target : String} {steps : List String}
      (targeted : config.get? "target" = some (.string target))
      (listed : config.get? "steps" = some (.tuple (steps.map .string))) :
      Asks config ⟨target, steps⟩
  | unlisted {target : String} (targeted : config.get? "target" = some (.string target))
      (absent : config.get? "steps" = none) : Asks config ⟨target, ["compile"]⟩

/-- Of the configurations that ask for a plan the last one asks for this one. -/
def LastAsked (configs : List Value) (plan : Plan) : Prop :=
  ∃ before config after, configs = before ++ config :: after ∧ Asks config plan ∧
    ∀ later ∈ after, ∀ other, ¬ Asks later other

/-- What a fresh builder holds after it was prepared with configurations, one after another. -/
def prepareAll (configs : List Value) : Plan :=
  configs.foldl (fun plan config => (echoBuilder.prepare config plan).1) {}

namespace Plan

def script (plan : Plan) (name : String) : List (Sink × String) :=
  (.say, s!"building {name} for {plan.target}") ::
    plan.steps.flatMap (fun step => [(.progress, step), (.message, s!"{step}: done")]) ++
    [(.say, s!"{name}: {plan.steps.length} steps finished")]

def narrated (plan : Plan) (host : Host τ) (state : τ) : τ × List HostCall × Except Failure Unit :=
  match host.name state with
  | (next, .error failure) => (next, [.askName], .error failure)
  | (next, .ok name) =>
    let (last, calls, result) := host.tellEach (plan.script name) next
    (last, .askName :: calls, result)

end Plan

/-- What a run behind these configurations comes to at a host: the state of the host, the calls that
it took, and the result. -/
def runAfter (configs : List Value) (host : Host τ) (state : τ) :
    τ × List HostCall × Except Failure Unit :=
  let ran := (echoBuilder.run (prepareAll configs)).hold host.recording (state, [])
  (ran.1.1, ran.1.2, ran.2.2)

def refused (host : Host τ) (state : τ) : τ × List HostCall × Except Failure Unit :=
  match host.tellEach [(.error, "builder was not prepared")] state with
  | (last, calls, .error failure) => (last, calls, .error failure)
  | (last, calls, .ok ()) => (last, calls, .error (.text "run called before prepare"))

end EchoBuilder

end PluginBridge
