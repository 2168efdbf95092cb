import PluginBridge.Builder.HostServices
import PluginBridge.Codec

/-!
# Serving a builder

The plugin's side of a builder. To run it, the plugin dials the address it is given and holds the
conversation there. A run that fails is reported as an error of the transport.
-/
namespace PluginBridge.Builder

variable {σ : Type}

def acceptConfig (codec : Codec) (builder : Builder σ) (blob : Bytes) (state : σ) :
    σ × Option Envelope :=
  match codec.decodeValue blob with
  | .error error => (state, some ⟨error.message, some .configuration⟩)
  | .ok config =>
    let (state, result) := builder.prepare config state
    (state, Envelope.ofResult .configuration result)

def runReply : Except Failure Unit → Except TransportError Bytes
  | .ok () => .ok (Message.nothing.write ())
  | .error failure => .error (.serverError failure.message)

/-- Dials the host, runs the builder and hangs up. -/
def handleRun (builder : Builder σ) (address : String) (state : σ) : Handling σ :=
  .dial address fun
    | .error error => .reply state (.error error)
    | .ok () =>
      (builder.run state).byCalls fun (state, result) => .hangUp (.reply state (runReply result))

def service (codec : Codec) (builder : Builder σ) : Service σ := fun method body state =>
  match method with
  | "Prepare" =>
    match Message.read Message.blob body with
    | .error error => .reply state (.error error)
    | .ok blob =>
      let (state, envelope) := builder.acceptConfig codec blob state
      .reply state (.ok (Message.acknowledgement.write envelope))
  | "Run" =>
    match Message.read Message.text body with
    | .error error => .reply state (.error error)
    | .ok address => builder.handleRun address state
  | other => .reply state (.error (.unknownMethod other))

end PluginBridge.Builder
