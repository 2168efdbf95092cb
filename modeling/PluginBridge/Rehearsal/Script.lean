import PluginBridge.Bridge.Error
import PluginBridge.Value

/-!
# Scripts

Outcomes that are played back call by call, to rehearse one side of a bridge without the other.
-/
namespace PluginBridge.Rehearsal

abbrev Outcome := Except Failure Value

/-- The outcome of a call, counted from zero: its own, later ones the last, and null if there are
none. -/
def outcome (outcomes : List Outcome) (call : Nat) : Outcome :=
  (outcomes[min call (outcomes.length - 1)]?).getD (.ok .null)

end PluginBridge.Rehearsal
