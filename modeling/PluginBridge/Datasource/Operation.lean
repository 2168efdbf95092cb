import PluginBridge.Datasource.Remote
import PluginBridge.Datasource.Serving

/-!
# Operations on a datasource

The calls that a datasource takes as data, carried out on the datasource itself or across a link,
and a datasource that keeps a record of the calls it took.
-/
namespace PluginBridge

inductive Operation where
  | configure (configs : List Value)
  | outputSpec
  | execute
  | cancel

namespace Operation

inductive Outcome where
  | configured (result : Except Failure Unit)
  | specified (result : Except BridgeError ObjectSpec)
  | executed (result : Except Failure Value)
  | cancelled

variable {σ ρ τ : Type}

def direct (datasource : Datasource σ) (state : σ) : Operation → σ × Outcome
  | configure configs =>
    let (state, result) := datasource.configure configs state
    (state, .configured result)
  | outputSpec => (datasource.specTold state, .specified (.ok (datasource.outputSpec state)))
  | execute =>
    let (state, result) := datasource.execute state
    (state, .executed result)
  | cancel => (datasource.cancel state, .cancelled)

def bridged (endpoint : RemoteEndpoint) (world : World τ) : Operation → Calls ρ τ Outcome
  | configure configs => do
    let result ← endpoint.configure world configs
    pure (.configured result)
  | outputSpec => do
    let result ← endpoint.outputSpec world
    pure (.specified result)
  | execute => do
    let result ← endpoint.execute world
    pure (.executed result)
  | cancel => do
    endpoint.cancel world
    pure .cancelled

def directAll (datasource : Datasource σ) (state : σ) : List Operation → σ × List Outcome
  | [] => (state, [])
  | operation :: rest =>
    let (next, outcome) := operation.direct datasource state
    let (final, outcomes) := directAll datasource next rest
    (final, outcome :: outcomes)

/-- Carries out calls one after another across a link, each after the reply to the one before. -/
def bridgedAll (endpoint : RemoteEndpoint) (world : World τ) :
    List Operation → Calls ρ τ (List Outcome)
  | [] => pure []
  | operation :: rest => do
    let outcome ← operation.bridged endpoint world
    let outcomes ← bridgedAll endpoint world rest
    pure (outcome :: outcomes)

/-- What a caller on the other side of a bridge learns of an outcome. -/
def Outcome.across : Outcome → Outcome
  | configured result => configured (result.mapError (Failure.afar .configuration))
  | specified result => specified result
  | executed result => executed (result.mapError (Failure.afar .execution))
  | cancelled => cancelled

end Operation

def Datasource.recording {σ : Type} (datasource : Datasource σ) :
    Datasource (σ × List Operation) where
  configure configs both :=
    let (state, result) := datasource.configure configs both.1
    ((state, both.2 ++ [.configure configs]), result)
  outputSpec both := datasource.outputSpec both.1
  specTold both := (datasource.specTold both.1, both.2 ++ [.outputSpec])
  execute both :=
    let (state, result) := datasource.execute both.1
    ((state, both.2 ++ [.execute]), result)
  cancel both := (datasource.cancel both.1, both.2 ++ [.cancel])

end PluginBridge
