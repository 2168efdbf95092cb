import PluginBridge.Transport.Frame

/-!
# The calling side of a connection

Calls may be issued while others wait. Each draws a sequence number and registers a channel under
it; the first reply with that number goes into the channel. A reply that nobody waits for is
dropped. When the connection ends, all channels are dropped, and no later one is accepted.
-/
namespace PluginBridge

/-- `waiting` holds the channels of the calls that wait, by their sequence numbers. -/
structure Client where
  nextSeq : UInt64 := 1
  waiting : List (UInt64 × Nat) := []
  closed : Bool := false
deriving DecidableEq, Inhabited

namespace Client

/-- Takes the next sequence number. The numbers wrap around. -/
def draw (client : Client) : Client × UInt64 :=
  ({ client with nextSeq := client.nextSeq + 1 }, client.nextSeq)

def forget (client : Client) (seq : UInt64) : Client :=
  { client with waiting := client.waiting.filter (·.1 != seq) }

/-- Waits on a channel for the reply with a number, instead of the channel that waited for it. None
if the connection has ended. -/
def register? (client : Client) (seq : UInt64) (channel : Nat) : Option Client :=
  if client.closed then none
  else some { client with waiting := (seq, channel) :: (client.forget seq).waiting }

def receive? (client : Client) (seq : UInt64) : Option (Client × Nat) :=
  (client.waiting.lookup seq).map fun channel => (client.forget seq, channel)

def disconnect (client : Client) : Client :=
  { client with waiting := [], closed := true }

end Client

end PluginBridge
