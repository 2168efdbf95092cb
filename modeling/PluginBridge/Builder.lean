import PluginBridge.Bridge.Error
import PluginBridge.Value

/-!
# Builders

A builder produces artifacts. While it runs it converses with its host: it asks for the name of the
build and tells the host's sinks about progress. What it does next may depend on every answer.
-/
namespace PluginBridge

inductive Sink where
  | progress
  | say
  | message
  | error
deriving DecidableEq, Inhabited

/-- What a builder does with its host before it comes to a result. -/
inductive Conversation (ρ : Type) where
  | done (result : ρ)
  | askName (next : Except Failure String → Conversation ρ)
  | tell (sink : Sink) (text : String) (next : Except Failure Unit → Conversation ρ)

namespace Conversation

variable {ρ π : Type}

def bind : Conversation ρ → (ρ → Conversation π) → Conversation π
  | done result, next => next result
  | askName rest, next => askName fun name => (rest name).bind next
  | tell sink text rest, next => tell sink text fun answer => (rest answer).bind next

instance : Monad Conversation where
  pure := done
  bind := bind

abbrev OrFail (α : Type) := ExceptT Failure Conversation α

def name : OrFail String :=
  ExceptT.mk (askName done)

def say (sink : Sink) (text : String) : OrFail Unit :=
  ExceptT.mk (tell sink text done)

end Conversation

structure Host (τ : Type) where
  name : τ → τ × Except Failure String
  tell : Sink → String → τ → τ × Except Failure Unit

def Conversation.hold {ρ τ : Type} (host : Host τ) : Conversation ρ → τ → τ × ρ
  | done result, state => (state, result)
  | askName next, state =>
    let (state, answer) := host.name state
    (next answer).hold host state
  | tell sink text next, state =>
    let (state, answer) := host.tell sink text state
    (next answer).hold host state

theorem Conversation.hold_bind {ρ π τ : Type} (conversation : Conversation ρ)
    (next : ρ → Conversation π) (host : Host τ) (state : τ) :
    (conversation.bind next).hold host state =
      (next (conversation.hold host state).2).hold host (conversation.hold host state).1 := by
  induction conversation generalizing state with
  | done result => rfl
  | askName rest ih => exact ih _ _
  | tell sink text rest ih => exact ih _ _

structure Builder (σ : Type) where
  prepare : Value → σ → σ × Except Failure Unit
  run : σ → Conversation (σ × Except Failure Unit)

end PluginBridge
