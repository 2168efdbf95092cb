import PluginBridge.Compact

/-!
# Error envelopes

What is left of an error that crosses the boundary between host and plugin: its outermost text and,
if known, a coarse kind.
-/
namespace PluginBridge

inductive ErrorKind where
  | configuration
  | execution
  | encoding
  | cancelled
  | callback
deriving DecidableEq, Inhabited

def ErrorKind.all : List ErrorKind :=
  [configuration, execution, encoding, cancelled, callback]

def ErrorKind.name : ErrorKind → String
  | configuration => "configuration"
  | execution => "execution"
  | encoding => "encoding"
  | cancelled => "cancelled"
  | callback => "callback"

structure Envelope where
  message : String
  kind : Option ErrorKind
deriving DecidableEq, Inhabited

namespace Envelope

def form : Compact.Form Envelope :=
  (Compact.Form.pair .text (.option (.choice ErrorKind.all))).as
    (fun envelope => (envelope.message, envelope.kind)) (fun (message, kind) => ⟨message, kind⟩)

/-- No envelope means success. -/
def check : Option Envelope → Except Envelope Unit
  | none => .ok ()
  | some envelope => .error envelope

end Envelope

end PluginBridge
