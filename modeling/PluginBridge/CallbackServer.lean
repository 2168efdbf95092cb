import PluginBridge.SocketAddress
import PluginBridge.Transport.Registry

/-!
# Callback servers

A listener that offers a host's services to a plugin for the span of one call. Services are
registered before it starts; starting takes them, and it starts only once.
-/
namespace PluginBridge

/-- `registry` holds what is registered until the start takes it, `listening` what is served. -/
structure CallbackServer (ς : Type) where
  registry : Option (Registry ς) := some []
  listening : Option (SocketAddress × Registry ς) := none

namespace CallbackServer

variable {ς : Type}

def register (server : CallbackServer ς) (endpoint : String) (service : ς) :
    CallbackServer ς × Except TransportError Unit :=
  match server.registry with
  | none => (server, .error .serverStarted)
  | some registry =>
    match registry.register endpoint service with
    | .ok registry => ({ server with registry := some registry }, .ok ())
    | .error error => (server, .error error)

/-- Starts to listen; `bound` is what binding the socket comes to. The registry is taken before the
socket is bound. -/
def start (server : CallbackServer ς) (bound : Except IoError SocketAddress) :
    CallbackServer ς × Except TransportError SocketAddress :=
  match server.registry with
  | none => (server, .error .serverStarted)
  | some registry =>
    match bound with
    | .error error => ({ server with registry := none }, .error (.io error))
    | .ok address => ({ registry := none, listening := some (address, registry) }, .ok address)

def stop (server : CallbackServer ς) : CallbackServer ς :=
  { server with listening := none }

def address? (server : CallbackServer ς) : Option SocketAddress :=
  server.listening.map (·.1)

def accept? (server : CallbackServer ς) (address : SocketAddress) : Option (Registry ς) :=
  match server.listening with
  | some (bound, registry) => if bound = address then some registry else none
  | none => none

/-- What the owner does up to a start. `bound` is what binding the socket comes to. -/
inductive Step (ς : Type) where
  | register (endpoint : String) (service : ς)
  | start (bound : Except IoError SocketAddress)

def step (server : CallbackServer ς) :
    Step ς → CallbackServer ς × Except TransportError (Option SocketAddress)
  | .register endpoint service =>
    let (server, result) := server.register endpoint service
    (server, result.map fun _ => none)
  | .start bound =>
    let (server, result) := server.start bound
    (server, result.map some)

def run (steps : List (Step ς)) : CallbackServer ς :=
  steps.foldl (fun server next => (server.step next).1) {}

end CallbackServer

end PluginBridge
