/-!
# Cancel triggers

A running call is armed with a guard when it starts and disarmed when it ends. Firing the trigger
cancels the call that was armed last, if that has not ended. The end of an older call does not
disarm a newer one: a guard remembers the generation at its arming, and the trigger compares it.
-/
namespace PluginBridge

/-- Guards are numbered by their arming. The slot holds the guard that was armed last until it is
dropped; `cancelled` lists the guards that were fired at. Generations are counted in a machine
word. -/
structure CancelTrigger where
  generation : UInt64 := 0
  guards : Nat := 0
  slot : Option Nat := none
  cancelled : List Nat := []
deriving DecidableEq, Inhabited

namespace CancelTrigger

def generationOf (guard : Nat) : UInt64 :=
  UInt64.ofNat guard

def arm (trigger : CancelTrigger) : CancelTrigger × Nat :=
  let guard := trigger.guards + 1
  ({ trigger with generation := trigger.generation + 1, guards := guard, slot := some guard },
    guard)

def drop (trigger : CancelTrigger) (guard : Nat) : CancelTrigger :=
  if trigger.generation = generationOf guard then { trigger with slot := none } else trigger

/-- Cancels the armed call; whether there was one. -/
def fire (trigger : CancelTrigger) : CancelTrigger × Bool :=
  match trigger.slot with
  | some guard => ({ trigger with cancelled := trigger.cancelled.insert guard }, true)
  | none => (trigger, false)

def armed (trigger : CancelTrigger) : Bool :=
  trigger.slot.isSome

def isCancelled (trigger : CancelTrigger) (guard : Nat) : Bool :=
  trigger.cancelled.contains guard

/-! ## Guards that overlap -/

inductive Event where
  | arm
  | drop (guard : Nat)
  | fire
deriving DecidableEq

/-- A trigger and the guards that have not been dropped. -/
structure Usage where
  trigger : CancelTrigger := {}
  live : List Nat := []
deriving DecidableEq

namespace Usage

/-- What an event does. Only a live guard can be dropped. -/
def step (usage : Usage) : Event → Usage
  | .arm =>
    let (trigger, guard) := usage.trigger.arm
    ⟨trigger, usage.live ++ [guard]⟩
  | .drop guard =>
    if guard ∈ usage.live then ⟨usage.trigger.drop guard, usage.live.erase guard⟩ else usage
  | .fire => { usage with trigger := usage.trigger.fire.1 }

def run (events : List Event) : Usage :=
  events.foldl step {}

end Usage

end CancelTrigger

end PluginBridge
