import PluginBridge.Bridge.Endpoint
import PluginBridge.Builder.HostServices
import PluginBridge.CallbackServer

/-!
# Calling a remote builder

The host's side of a builder. For each run the host starts a callback server with its services,
gives the plugin its address, and stops it before the run returns.
-/
namespace PluginBridge

/-- A host, its callback server, and the plugin's connection to that if there is one. -/
structure CallbackSite (τ : Type) where
  state : τ
  server : CallbackServer (Service τ) := {}
  link : Option (Link τ) := none

namespace CallbackSite

variable {τ : Type}

def register (site : CallbackSite τ) (endpoint : String) (service : Service τ) :
    CallbackSite τ × Except BridgeError Unit :=
  let (server, result) := site.server.register endpoint service
  ({ site with server := server }, result.mapError .callbackServer)

/-- What a plugin can reach when only the callback server can be dialled. -/
def world : World (CallbackSite τ) where
  dial address site :=
    match (SocketAddress.parse? address).bind site.server.accept? with
    | some services => ({ site with link := some (.connect services site.state) }, .ok ())
    | none => (site, .error (.dial address ((World.addressFault? address).getD .refused)))
  call method body site :=
    match site.link with
    | none => (site, some (.error .connectionClosed))
    | some link =>
      let (link, _, reply) := link.call World.unreachable method body ()
      ({ site with state := link.state, link := some link }, reply)
  hangUp site := { site with link := none }

end CallbackSite

namespace RemoteEndpoint

variable {σ τ : Type}

def prepare (endpoint : RemoteEndpoint) (world : World τ) (config : Value) :
    Calls σ τ (Except Failure Unit) := do
  let reply ← endpoint.invoke world "Prepare"
    (Message.blob.write (endpoint.codec.encodeValue config)) Message.acknowledgement id
  pure ((reply.map fun _ => ()).mapError .bridge)

def runServed (endpoint : RemoteEndpoint) (host : Host τ)
    (bound : Except IoError SocketAddress) :
    Calls σ (CallbackSite τ) (Except BridgeError Unit) := fun (link, site) =>
  match site.register Sink.buildEndpoint host.buildService with
  | (site, .error error) => (some (.error error), (link, site))
  | (site, .ok ()) =>
    match site.register Sink.uiEndpoint host.uiService with
    | (site, .error error) => (some (.error error), (link, site))
    | (site, .ok ()) =>
      match site.server.start bound with
      | (server, .error error) =>
        (some (.error (.callbackServer error)), (link, { site with server := server }))
      | (server, .ok address) =>
        endpoint.invoke CallbackSite.world "Run" (Message.text.write address.text)
          Message.nothing (fun _ => none) (link, { site with server := server })

/-- Runs the builder with a host. Whatever comes of it, the callback server is stopped and what is
left of its site is returned. -/
def runAtSite (endpoint : RemoteEndpoint) (host : Host τ)
    (bound : Except IoError SocketAddress) :
    Calls σ (CallbackSite τ) (Except BridgeError Unit) := fun (link, site) =>
  let (result?, (link, site)) := endpoint.runServed host bound (link, site)
  (result?, (link, { site with server := site.server.stop }))

def run (endpoint : RemoteEndpoint) (host : Host τ) (bound : Except IoError SocketAddress) :
    Calls σ τ (Except Failure Unit) := fun (link, state) =>
  let (result?, (link, site)) := endpoint.runAtSite host bound (link, ⟨state, {}, none⟩)
  (result?.map (·.mapError .bridge), (link, site.state))

end RemoteEndpoint

end PluginBridge
