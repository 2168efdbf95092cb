import PluginBridge.Capability
import PluginBridge.Value.Json

/-!
# Configurations

What a configuration file says: where a plugin serves, which plugin a host dials, and the endpoints
that the plugin offers.
-/
namespace PluginBridge

structure ServerSection where
  listen : String := ""
  mode : Mode := .standard
deriving Inhabited

structure HostSection where
  connect : String := ""
  callbackBind : String := "127.0.0.1:0"
  mode : Mode := .standard
deriving Inhabited

structure Endpoint where
  name : String
  capability : Capability
  implementation : String
  config : Json := .null
deriving Inhabited

structure Config where
  server : Option ServerSection := none
  host : Option HostSection := none
  endpoints : List Endpoint := []
  /-- Where plugins are looked for; none if the section is missing. -/
  searchPaths : Option (List String) := none
deriving Inhabited

/-- The configuration of an endpoint as a value, an empty object if there is none. -/
def Endpoint.configValue (endpoint : Endpoint) : Value :=
  match endpoint.config with
  | .null => .object []
  | json => .ofJson json

namespace Config

def endpoint? (config : Config) (name : String) : Option Endpoint :=
  config.endpoints.find? fun endpoint => endpoint.name == name

/-- The first endpoint that provides a capability, which is used when none is named. -/
def firstEndpoint? (config : Config) (capability : Capability) : Option Endpoint :=
  config.endpoints.find? fun endpoint => endpoint.capability == capability

end Config

end PluginBridge
