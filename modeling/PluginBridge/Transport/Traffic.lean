import PluginBridge.Transport.Client

/-!
# The calls of a client

A call draws its number, registers its channel, writes its frame and waits; if the frame cannot be
written, it removes its channel again. The steps of different calls and the replies that arrive
follow each other in any order.
-/
namespace PluginBridge

namespace Traffic

/-- How far a call has come. A broken call has failed to write its frame and has yet to remove its
channel. -/
inductive Stage where
  | drawn
  | refused
  | registered
  | sent
  | broken (error : TransportError)
  | failed (error : TransportError)

/-- A call. `since` is the number of replies that had arrived when it was registered; `held` is the
reply in its channel, with its place among those that arrived. -/
structure Call where
  seq : UInt64
  method : String
  body : Bytes
  stage : Stage := .drawn
  since : Nat := 0
  held : Option (Nat × ResponseFrame) := none

def Call.request (call : Call) : RequestFrame :=
  ⟨call.seq, call.method, call.body⟩

/-- A step of a call, something found on the stream, or the end of the connection on request. The
system may fail to write a frame behind some of its bytes. -/
inductive Event where
  | draw (method : String) (body : Bytes)
  | register (channel : Nat)
  | write (channel : Nat) (fault : Option (IoError × Nat))
  | forget (channel : Nat)
  | read (found : Frame.Found ResponseFrame)
  | close

end Traffic

/-- A client, its calls in the order of their numbers, the replies that have arrived and the bytes
that have been written. The place of a call among the calls names its channel. -/
structure Traffic where
  client : Client := {}
  calls : List Traffic.Call := []
  arrived : List ResponseFrame := []
  written : Bytes := []

namespace Traffic

def put (traffic : Traffic) (channel : Nat) (call : Call) : Traffic :=
  { traffic with calls := traffic.calls.set channel call }

def draw (traffic : Traffic) (method : String) (body : Bytes) : Traffic :=
  let (client, seq) := traffic.client.draw
  let call : Call := ⟨seq, method, body, .drawn, 0, none⟩
  { traffic with client := client, calls := traffic.calls ++ [call] }

def register (traffic : Traffic) (channel : Nat) (call : Call) : Traffic :=
  match call.stage with
  | .drawn =>
    match traffic.client.register? call.seq channel with
    | none => traffic.put channel { call with stage := .refused }
    | some client =>
      let call := { call with stage := .registered, since := traffic.arrived.length }
      { traffic.put channel call with client := client }
  | _ => traffic

def write (traffic : Traffic) (channel : Nat) (fault : Option (IoError × Nat)) (call : Call) :
    Traffic :=
  match call.stage with
  | .registered =>
    match Frame.write RequestFrame.form call.request, fault with
    | .error error, _ => traffic.put channel { call with stage := .broken error }
    | .ok bytes, none =>
      { traffic.put channel { call with stage := .sent } with written := traffic.written ++ bytes }
    | .ok bytes, some (error, size) =>
      { traffic.put channel { call with stage := .broken (.io error) } with
        written := traffic.written ++ bytes.take size }
  | _ => traffic

def forget (traffic : Traffic) (channel : Nat) (call : Call) : Traffic :=
  match call.stage with
  | .broken error =>
    { traffic.put channel { call with stage := .failed error } with
      client := traffic.client.forget call.seq }
  | _ => traffic

def receive (traffic : Traffic) (frame : ResponseFrame) : Traffic :=
  let arrived := traffic.arrived ++ [frame]
  match traffic.client.receive? frame.seq with
  | none => { traffic with arrived := arrived }
  | some (client, channel) =>
    let calls := traffic.calls.modify channel fun call =>
      { call with held := some (traffic.arrived.length, frame) }
    { traffic with client := client, calls := calls, arrived := arrived }

def disconnect (traffic : Traffic) : Traffic :=
  { traffic with client := traffic.client.disconnect }

/-- What an event does; a step that a call cannot take does nothing. -/
def step (traffic : Traffic) : Event → Traffic
  | .draw method body => traffic.draw method body
  | .register channel => (traffic.calls[channel]?).elim traffic (traffic.register channel)
  | .write channel fault => (traffic.calls[channel]?).elim traffic (traffic.write channel fault)
  | .forget channel => (traffic.calls[channel]?).elim traffic (traffic.forget channel)
  | .read (.frame frame) => traffic.receive frame
  | .read .closed => traffic.disconnect
  | .read (.failed _) => traffic.disconnect
  | .close => traffic.disconnect

def run (events : List Event) : Traffic :=
  events.foldl step {}

def waits (traffic : Traffic) (channel : Nat) : Bool :=
  traffic.client.waiting.any (·.2 == channel)

/-- What a call has come to, if it has returned. A call that waits fails when its channel is dropped
without a reply in it. -/
def Call.result? (call : Call) (waits : Bool) : Option (Except TransportError ResponseFrame) :=
  match call.stage, call.held with
  | .refused, _ => some (.error .connectionClosed)
  | .failed error, _ => some (.error error)
  | .sent, some (_, frame) => some (.ok frame)
  | .sent, none => if waits then none else some (.error .connectionClosed)
  | _, _ => none

def outcome? (traffic : Traffic) (channel : Nat) : Option (Except TransportError ResponseFrame) :=
  (traffic.calls[channel]?).bind fun call => call.result? (traffic.waits channel)

end Traffic

end PluginBridge
