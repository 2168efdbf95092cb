import PluginBridge.Rehearsal.RecordingHost

/-!
# Transcripts

Both sides of a conversation on record: a host that keeps the calls it took, and a builder that
keeps the answers it heard. A builder can also keep what it was prepared with.
-/
namespace PluginBridge

open Rehearsal (HostCall)

/-- The same host with a record of the calls it took, the first one first. -/
def Host.recording {τ : Type} (host : Host τ) : Host (τ × List HostCall) where
  name both :=
    let (state, answer) := host.name both.1
    ((state, both.2 ++ [.askName]), answer)
  tell sink text both :=
    let (state, answer) := host.tell sink text both.1
    ((state, both.2 ++ [.tell sink text]), answer)

/-- An answer as a builder hears it; of a failure only the outermost text. -/
inductive Heard where
  | name (answer : Except String String)
  | told (answer : Except String Unit)

/-- The same conversation with the answers that were heard, behind those heard before it. -/
def Conversation.transcribed {ρ : Type} (heard : List Heard) :
    Conversation ρ → Conversation (ρ × List Heard)
  | done result => done (result, heard)
  | askName next => askName fun answer =>
    (next answer).transcribed (heard ++ [.name (answer.mapError Failure.message)])
  | tell sink text next => tell sink text fun answer =>
    (next answer).transcribed (heard ++ [.told (answer.mapError Failure.message)])

def Builder.transcribing {σ : Type} (builder : Builder σ) : Builder (σ × List Heard) where
  prepare config both :=
    let (state, result) := builder.prepare config both.1
    ((state, both.2), result)
  run both :=
    ((builder.run both.1).transcribed both.2).bind fun ((state, result), heard) =>
      .done ((state, heard), result)

def Builder.recording {σ : Type} (builder : Builder σ) : Builder (σ × List Value) where
  prepare config both :=
    let (state, result) := builder.prepare config both.1
    ((state, both.2 ++ [config]), result)
  run both :=
    (builder.run both.1).bind fun (state, result) => .done ((state, both.2), result)

end PluginBridge
