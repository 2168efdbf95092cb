import PluginBridge.Transport.Service

/-!
# Visits

Services on record: each keeps, in a state that all share, the calls that reach it. Services that
are offered one after another are told apart by their places, even if some of them are the same.
-/
namespace PluginBridge

/-- A call as it reached a service: the place at which the service was offered, and what it got. -/
structure Visit where
  place : Nat
  method : String
  body : Bytes
deriving DecidableEq

namespace Service

variable {σ : Type}

/-- The same service with a record of the calls that reached it, behind those before. -/
def recording (place : Nat) (service : Service σ) : Service (σ × List Visit) :=
  fun method body both =>
    (service method body both.1).within fun next => (next, both.2 ++ [⟨place, method, body⟩])

def recordingEach (offered : List (String × Service σ)) :
    List (String × Service (σ × List Visit)) :=
  offered.mapIdx fun place (endpoint, service) => (endpoint, service.recording place)

end Service

end PluginBridge
