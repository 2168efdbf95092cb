import PluginBridge.Bridge.Message
import PluginBridge.CancelTrigger
import PluginBridge.Codec
import PluginBridge.Datasource
import PluginBridge.Transport.Service

/-!
# Serving a datasource

The plugin's side of a datasource: calls are decoded, carried out, and answered. A configuration
reaches the datasource only if all its values can be decoded. A call that is interrupted by a cancel
is answered at once, whatever the datasource does.
-/
namespace PluginBridge

/-- The state of a datasource and the trigger that cancels its executions. -/
structure HostedDatasource (σ : Type) where
  state : σ
  trigger : CancelTrigger := {}

namespace Datasource

variable {σ : Type}

def cancelledMessage : String := "execution cancelled"

def acceptConfigs (codec : Codec) (datasource : Datasource σ) (blobs : List Bytes) (state : σ) :
    σ × Option Envelope :=
  match blobs.mapM codec.decodeValue with
  | .error error => (state, some ⟨error.message, some .configuration⟩)
  | .ok configs =>
    let (state, result) := datasource.configure configs state
    (state, Envelope.ofResult .configuration result)

def executed (codec : Codec) : Except Failure Value → Bytes × Option Envelope
  | .error failure => ([], some ⟨failure.message, some .execution⟩)
  | .ok value =>
    match codec.encodeResult value with
    | .ok bytes => (bytes, none)
    | .error error => ([], some ⟨error.message, some .encoding⟩)

def interrupted : Bytes × Option Envelope :=
  ([], some ⟨cancelledMessage, some .cancelled⟩)

/-- An execution from its arming to its end, with nothing in between. -/
def executeArmed (codec : Codec) (datasource : Datasource σ) (hosted : HostedDatasource σ) :
    HostedDatasource σ × Bytes × Option Envelope :=
  let (trigger, guard) := hosted.trigger.arm
  let (state, result) := datasource.execute hosted.state
  (⟨state, trigger.drop guard⟩, executed codec result)

def answer (codec : Codec) (datasource : Datasource σ) (method : String) (body : Bytes)
    (hosted : HostedDatasource σ) : HostedDatasource σ × Except TransportError Bytes :=
  match method with
  | "Configure" =>
    match Message.read Message.blobs body with
    | .error error => (hosted, .error error)
    | .ok blobs =>
      let (state, envelope) := datasource.acceptConfigs codec blobs hosted.state
      ({ hosted with state := state }, .ok (Message.acknowledgement.write envelope))
  | "OutputSpec" =>
    let spec := datasource.outputSpec hosted.state
    ({ hosted with state := datasource.specTold hosted.state },
      .ok (Message.blob.write (codec.encodeSpec spec)))
  | "Execute" =>
    let (hosted, reply) := datasource.executeArmed codec hosted
    (hosted, .ok (Message.outcome.write reply))
  | "Cancel" =>
    let (trigger, _) := hosted.trigger.fire
    (⟨datasource.cancel hosted.state, trigger⟩, .ok (Message.nothing.write ()))
  | other => (hosted, .error (.unknownMethod other))

def service (codec : Codec) (datasource : Datasource σ) : Service (HostedDatasource σ) :=
  Service.ofAnswer (datasource.answer codec)

end Datasource

end PluginBridge
