import PluginBridge.Builder.Remote
import PluginBridge.Datasource.Remote
import PluginBridge.Json
import PluginBridge.Spec.Tagged
import PluginBridge.Value.Json

/-!
# Requests to a plugin

What the commands ask of an endpoint over a link. Calls take no time on a link, so an execution
never outlasts its timeout there.
-/
namespace PluginBridge.RemoteEndpoint

variable {σ τ : Type}

/-- Configures a datasource with its configuration and the overrides, as two values, and executes
it. The answer shows the endpoint, the specification and the value. -/
def query (endpoint : RemoteEndpoint) (world : World τ) (config overrides : Value) :
    Calls σ τ (Except Failure Json) := do
  match ← endpoint.configure world [config, overrides] with
  | .error failure => return .error (.context s!"configuring `{endpoint.name}`" failure)
  | .ok () =>
    match ← endpoint.outputSpec world with
    | .error error => return .error (.bridge error)
    | .ok spec =>
      match ← endpoint.execute world with
      | .error failure => return .error failure
      | .ok value =>
        return .ok (.object [("endpoint", .string endpoint.name),
          ("output_spec", spec.toTagged), ("value", value.toJson)])

def build (endpoint : RemoteEndpoint) (world : World τ) (host : Host τ)
    (bound : Except IoError SocketAddress) (config : Value) : Calls σ τ (Except Failure Unit) := do
  match ← endpoint.prepare world config with
  | .error failure => return .error (.context s!"preparing `{endpoint.name}`" failure)
  | .ok () =>
    match ← endpoint.run host bound with
    | .error failure => return .error (.context s!"running `{endpoint.name}`" failure)
    | .ok () => return .ok ()

end PluginBridge.RemoteEndpoint
