import PluginBridge.Datasource
import PluginBridge.Rehearsal.Script

/-!
# The scripted datasource

A datasource that plays back outcomes and keeps a record of how it was used.
-/
namespace PluginBridge.Rehearsal

structure ScriptedDatasource where
  configureOutcomes : List Outcome := []
  executeOutcomes : List Outcome := []
  spec : ObjectSpec := []
  /-- The configurations it was given, the first call first. -/
  configs : List (List Value) := []
  executes : Nat := 0
  cancels : Nat := 0

def scriptedDatasource : Datasource ScriptedDatasource where
  configure configs state :=
    ({ state with configs := state.configs ++ [configs] },
      (outcome state.configureOutcomes state.configs.length).map fun _ => ())
  outputSpec state := state.spec
  execute state :=
    ({ state with executes := state.executes + 1 }, outcome state.executeOutcomes state.executes)
  cancel state := { state with cancels := state.cancels + 1 }

end PluginBridge.Rehearsal
