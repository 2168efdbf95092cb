import PluginBridge.Builder.Serving
import PluginBridge.Datasource.Serving

/-!
# Plugin servers

What a plugin serves: its capabilities under their endpoint names, all in one mode.
-/
namespace PluginBridge

/-- A server in one mode over a common state; `endpoints` lists what was added, in order. -/
structure PluginServer (ς : Type) where
  mode : Mode
  registry : Registry ς := []
  endpoints : List (String × Capability) := []

namespace PluginServer

variable {ς : Type}

def serve (server : PluginServer ς) (endpoint : String) (capability : Capability) (service : ς) :
    Except TransportError (PluginServer ς) :=
  match server.registry.register endpoint service with
  | .ok registry =>
    .ok { server with
      registry := registry
      endpoints := server.endpoints ++ [(endpoint, capability)] }
  | .error error => .error error

end PluginServer

end PluginBridge
