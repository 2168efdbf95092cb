import PluginBridge.Builder
import PluginBridge.Rehearsal.Script

/-!
# The scripted builder

A builder that carries out a list of actions and keeps a record of the answers it got.
-/
namespace PluginBridge.Rehearsal

inductive Action where
  | askName
  | tell (sink : Sink) (text : String)
  | fail (failure : Failure)

structure ScriptedBuilder where
  prepareOutcomes : List Outcome := []
  actions : List Action := []
  keepGoing : Bool := false
  prepared : List Value := []
  /-- What the host answered, a name only where it was asked for. -/
  trace : List (Except Failure (Option String)) := []

namespace ScriptedBuilder

/-- Notes an answer of the host, and goes on unless it is a failure that ends the run. -/
def noting (next : ScriptedBuilder → Conversation (ScriptedBuilder × Except Failure Unit))
    (state : ScriptedBuilder) (answer : Except Failure (Option String)) :
    Conversation (ScriptedBuilder × Except Failure Unit) :=
  let noted := { state with trace := state.trace ++ [answer] }
  match answer with
  | .ok _ => next noted
  | .error failure => if state.keepGoing then next noted else .done (noted, .error failure)

def act : List Action → ScriptedBuilder →
    Conversation (ScriptedBuilder × Except Failure Unit)
  | [], state => .done (state, .ok ())
  | .askName :: rest, state =>
    .askName fun answer => noting (act rest) state (answer.map some)
  | .tell sink text :: rest, state =>
    .tell sink text fun answer => noting (act rest) state (answer.map fun _ => none)
  | .fail failure :: _, state => .done (state, .error failure)

end ScriptedBuilder

def scriptedBuilder : Builder ScriptedBuilder where
  prepare config state :=
    ({ state with prepared := state.prepared ++ [config] },
      (outcome state.prepareOutcomes state.prepared.length).map fun _ => ())
  run state := ScriptedBuilder.act state.actions state

end PluginBridge.Rehearsal
