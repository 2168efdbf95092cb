import PluginBridge.Bridge.Endpoint
import PluginBridge.Datasource

/-!
# Calling a remote datasource

The host's side of a datasource: each operation is one call to the plugin.
-/
namespace PluginBridge.RemoteEndpoint

variable {σ τ : Type}

def configure (endpoint : RemoteEndpoint) (world : World τ) (configs : List Value) :
    Calls σ τ (Except Failure Unit) := do
  let blobs := configs.map endpoint.codec.encodeValue
  let reply ← endpoint.invoke world "Configure" (Message.blobs.write blobs)
    Message.acknowledgement id
  pure ((reply.map fun _ => ()).mapError .bridge)

def outputSpec (endpoint : RemoteEndpoint) (world : World τ) :
    Calls σ τ (Except BridgeError ObjectSpec) := do
  let reply ← endpoint.invoke world "OutputSpec" (Message.nothing.write ()) Message.blob
    fun _ => none
  pure do
    let blob ← reply
    (endpoint.codec.decodeSpec blob).mapError .codec

def execute (endpoint : RemoteEndpoint) (world : World τ) :
    Calls σ τ (Except Failure Value) := do
  let reply ← endpoint.invoke world "Execute" (Message.nothing.write ()) Message.outcome (·.2)
  pure do
    let (blob, _) ← reply.mapError .bridge
    (endpoint.codec.decodeResult blob).mapError fun error => .bridge (.codec error)

/-- Asks to abandon an execution. That it could not be delivered is not reported. -/
def cancel (endpoint : RemoteEndpoint) (world : World τ) : Calls σ τ Unit := do
  let _ ← endpoint.invoke world "Cancel" (Message.nothing.write ()) Message.nothing fun _ => none
  pure ()

def specPanic (endpoint : RemoteEndpoint) (error : BridgeError) : String :=
  s!"{endpoint.name}.OutputSpec returned an undecodable schema: {error.message}"

end PluginBridge.RemoteEndpoint
