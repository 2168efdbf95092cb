import PluginBridge.CallbackServer
import PluginBridge.Transport.Service

/-!
# Sessions with a callback server

A callback server, the clients that have connected to it, and the common state of its services. Its
owner registers services, starts it and stops it; clients connect to an address and call.
-/
namespace PluginBridge

/-- `connections` holds the clients in the order in which they connected, each with the services at
the other end; `outside` is the state of what the services can reach themselves. -/
structure CallbackSessions (σ τ : Type) where
  server : CallbackServer (Service σ) := {}
  connections : List (Client × Server σ) := []
  state : σ
  outside : τ

namespace CallbackSessions

variable {σ τ : Type}

def register (sessions : CallbackSessions σ τ) (endpoint : String) (service : Service σ) :
    CallbackSessions σ τ × Except TransportError Unit :=
  let (server, result) := sessions.server.register endpoint service
  ({ sessions with server := server }, result)

def start (sessions : CallbackSessions σ τ) (bound : Except IoError SocketAddress) :
    CallbackSessions σ τ × Except TransportError SocketAddress :=
  let (server, result) := sessions.server.start bound
  ({ sessions with server := server }, result)

def stop (sessions : CallbackSessions σ τ) : CallbackSessions σ τ :=
  match sessions.server.listening with
  | none => sessions
  | some _ =>
    { sessions with
      server := sessions.server.stop
      connections := sessions.connections.map fun (client, services) =>
        (client.disconnect, services) }

/-- Connects a client to an address. A connection is named by its place among all. -/
def connect (sessions : CallbackSessions σ τ) (address : SocketAddress) :
    CallbackSessions σ τ × Except TransportError Nat :=
  match sessions.server.accept? address with
  | none => (sessions, .error (.dial address.text .refused))
  | some services =>
    ({ sessions with connections := sessions.connections ++ [({}, services)] },
      .ok sessions.connections.length)

def call (world : World τ) (sessions : CallbackSessions σ τ) (place : Nat) (method : String)
    (body : Bytes) : CallbackSessions σ τ × Option (Except TransportError ResponseFrame) :=
  match sessions.connections[place]? with
  | none => (sessions, some (.error .connectionClosed))
  | some (client, services) =>
    let (link, outside, reply) :=
      Link.call world method body ⟨client, services, sessions.state⟩ sessions.outside
    ({ sessions with
        connections := sessions.connections.set place (link.client, link.server)
        state := link.state
        outside := outside },
      reply)

/-- What the owner or a client does. The socket of a start can be bound. -/
inductive Step (σ : Type) where
  | register (endpoint : String) (service : Service σ)
  | start (address : SocketAddress)
  | stop
  | connect (address : SocketAddress)
  | call (place : Nat) (method : String) (body : Bytes)

def step (world : World τ) (sessions : CallbackSessions σ τ) : Step σ → CallbackSessions σ τ
  | .register endpoint service => (sessions.register endpoint service).1
  | .start address => (sessions.start (.ok address)).1
  | .stop => sessions.stop
  | .connect address => (sessions.connect address).1
  | .call place method body => (sessions.call world place method body).1

def run (world : World τ) (state : σ) (outside : τ) (steps : List (Step σ)) :
    CallbackSessions σ τ :=
  steps.foldl (step world) { state := state, outside := outside }

end CallbackSessions

end PluginBridge
