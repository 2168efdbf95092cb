import PluginBridge.Bridge.Message
import PluginBridge.Codec
import PluginBridge.Transport.Service

/-!
# Remote endpoints

A named endpoint at the other end of a link, and what calling it comes to. A call acts on the link
and on what the services there can reach; it may never return.
-/
namespace PluginBridge

/-- Calls on a link to services over a state `σ`, which can reach a world over `τ`. -/
abbrev Calls (σ τ α : Type) := OptionT (StateM (Link σ × τ)) α

structure RemoteEndpoint where
  name : String
  codec : Codec

namespace RemoteEndpoint

variable {σ τ α : Type}

def invoke (endpoint : RemoteEndpoint) (world : World τ) (method : String) (body : Bytes)
    (form : Compact.Form α) (envelope? : α → Option Envelope) :
    Calls σ τ (Except BridgeError α) := fun (link, outside) =>
  let name := Registry.methodName endpoint.name method
  let (link, outside, reply?) := link.call world name body outside
  (reply?.map (Message.settle name form envelope?), (link, outside))

end RemoteEndpoint

end PluginBridge
