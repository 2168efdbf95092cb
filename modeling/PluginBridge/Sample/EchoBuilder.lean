import PluginBridge.Builder
import PluginBridge.Value.Typing

/-!
# The echo builder

A builder that walks the steps it was given and narrates each to its host.
-/
namespace PluginBridge

namespace EchoBuilder

/-- What was prepared; before that the target is empty. -/
structure Plan where
  target : String := ""
  steps : List String := []
deriving DecidableEq, Inhabited

def stepText (step : Value) : Except Failure String :=
  match step.text? with
  | some text => .ok text
  | none => .error (.text "steps must be strings")

/-- The steps of a configuration; one if it gives none. -/
def stepsOf : Option Value → Except Failure (List String)
  | none => .ok ["compile"]
  | some (.list items) => items.mapM stepText
  | some (.tuple items) => items.mapM stepText
  | some other => .error (.text s!"steps must be a list, got {other.ty.expression}")

def planOf (config : Value) : Except Failure Plan :=
  match (config.get? "target").bind Value.text? with
  | none => .error (.text "missing field: target")
  | some target => (stepsOf (config.get? "steps")).map fun steps => ⟨target, steps⟩

def prepare (config : Value) (plan : Plan) : Plan × Except Failure Unit :=
  match planOf config with
  | .ok plan => (plan, .ok ())
  | .error failure => (plan, .error failure)

def narrateSteps : List String → Conversation.OrFail Unit
  | [] => pure ()
  | step :: rest => do
    Conversation.say .progress step
    Conversation.say .message s!"{step}: done"
    narrateSteps rest

def narrate (plan : Plan) : Conversation.OrFail Unit :=
  if plan.target = "" then do
    Conversation.say .error "builder was not prepared"
    throw (.text "run called before prepare")
  else do
    let name ← Conversation.name
    Conversation.say .say s!"building {name} for {plan.target}"
    narrateSteps plan.steps
    Conversation.say .say s!"{name}: {plan.steps.length} steps finished"

end EchoBuilder

def echoBuilder : Builder EchoBuilder.Plan where
  prepare := EchoBuilder.prepare
  run plan := do
    let result ← (EchoBuilder.narrate plan).run
    pure (plan, result)

end PluginBridge
