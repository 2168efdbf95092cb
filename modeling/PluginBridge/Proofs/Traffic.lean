import Mathlib.Data.List.Basic
import Mathlib.Data.List.Induction
import PluginBridge.Proofs.Client
import PluginBridge.Proofs.Exchange
import PluginBridge.Transport.Traffic

/-! What an event does to the calls of a client: nothing, one step of one call, or something that is
found on the stream. -/

namespace PluginBridge

namespace Traffic

/-! ## What a call can do -/

/-- The step that a call takes, with the client, the call and the written bytes behind it. -/
inductive Move (traffic : Traffic) (channel : Nat) (call : Call) :
    Client → Call → Bytes → Prop where
  | refuse (drawn : call.stage = .drawn) (closed : traffic.client.closed = true) :
      Move traffic channel call traffic.client { call with stage := .refused } traffic.written
  | register (drawn : call.stage = .drawn) (open_ : traffic.client.closed = false) :
      Move traffic channel call
        { traffic.client with
          waiting := (call.seq, channel) :: (traffic.client.forget call.seq).waiting }
        { call with stage := .registered, since := traffic.arrived.length } traffic.written
  | send (registered : call.stage = .registered)
      (fits : Frame.Fits RequestFrame.form call.request) (bytes : Bytes) :
      Move traffic channel call traffic.client { call with stage := .sent }
        (traffic.written ++ bytes)
  | fail (registered : call.stage = .registered) (error : TransportError) (bytes : Bytes)
      (large : ¬ Frame.Fits RequestFrame.form call.request →
        error = .frameTooLarge (RequestFrame.form.write call.request).length ∧ bytes = []) :
      Move traffic channel call traffic.client { call with stage := .broken error }
        (traffic.written ++ bytes)
  | remove (error : TransportError) (broken : call.stage = .broken error) :
      Move traffic channel call (traffic.client.forget call.seq)
        { call with stage := .failed error } traffic.written

def moved (traffic : Traffic) (channel : Nat) (client : Client) (next : Call) (written : Bytes) :
    Traffic :=
  { traffic with client := client, calls := traffic.calls.set channel next, written := written }

def arrive (traffic : Traffic) (frame : ResponseFrame) : Traffic :=
  { traffic with arrived := traffic.arrived ++ [frame] }

def Moves (traffic : Traffic) (channel : Nat) (call : Call) (after : Traffic) : Prop :=
  after = traffic ∨ ∃ client next written, Move traffic channel call client next written ∧
    after = traffic.moved channel client next written

variable {traffic : Traffic} {channel other : Nat} {call : Call}

theorem moves_register (traffic : Traffic) (channel : Nat) (call : Call) :
    Moves traffic channel call (traffic.register channel call) := by
  unfold register
  split
  · rename_i drawn
    cases registered : traffic.client.register? call.seq channel with
    | none =>
      exact .inr ⟨_, _, _, .refuse drawn (Client.register?_none registered), rfl⟩
    | some client =>
      obtain ⟨open_, rfl⟩ := Client.register?_some registered
      exact .inr ⟨_, _, _, .register drawn open_, rfl⟩
  · exact .inl rfl

theorem moves_write (traffic : Traffic) (channel : Nat) (fault : Option (IoError × Nat))
    (call : Call) : Moves traffic channel call (traffic.write channel fault call) := by
  unfold write
  split
  · rename_i registered
    by_cases fits : Frame.Fits RequestFrame.form call.request
    · rw [Frame.write_of_fits fits]
      cases fault with
      | none => exact .inr ⟨_, _, _, .send registered fits _, rfl⟩
      | some fault => exact .inr ⟨_, _, _, .fail registered _ _ (absurd fits), rfl⟩
    · rw [Frame.write_of_not_fits fits]
      refine .inr ⟨_, _, _, .fail registered _ [] (fun _ => ⟨rfl, rfl⟩), ?_⟩
      rw [List.append_nil]
      rfl
  · exact .inl rfl

theorem moves_forget (traffic : Traffic) (channel : Nat) (call : Call) :
    Moves traffic channel call (traffic.forget channel call) := by
  unfold forget
  split
  · rename_i error broken
    exact .inr ⟨_, _, _, .remove error broken, rfl⟩
  · exact .inl rfl

theorem receive_of_unmatched {frame : ResponseFrame}
    (unmatched : traffic.client.receive? frame.seq = none) :
    traffic.receive frame = traffic.arrive frame := by
  rw [receive, unmatched]
  rfl

theorem receive_of_matched {frame : ResponseFrame} {client : Client}
    (matched : traffic.client.receive? frame.seq = some (client, channel))
    (found : traffic.calls[channel]? = some call) :
    traffic.receive frame = (traffic.arrive frame).moved channel client
      { call with held := some (traffic.arrived.length, frame) } traffic.written := by
  rw [receive, matched]
  simp only [arrive, moved, List.modify_eq_set_getElem?, found, Option.map_eq_map, Option.map_some,
    Option.getD_some]

/-- What an event does: nothing, a step of one call, or something on the stream. -/
inductive Change (traffic : Traffic) : Traffic → Prop where
  | idle : Change traffic traffic
  | draw (method : String) (body : Bytes) : Change traffic (traffic.draw method body)
  | move {channel : Nat} {call next : Call} {client : Client} {written : Bytes}
      (found : traffic.calls[channel]? = some call)
      (move : Move traffic channel call client next written) :
      Change traffic (traffic.moved channel client next written)
  | receive (frame : ResponseFrame) : Change traffic (traffic.receive frame)
  | disconnect : Change traffic traffic.disconnect

/-- What holds of a connection and of each step that its call can take holds after the step. -/
theorem elim_call (property : Traffic → Prop) {act : Call → Traffic} (idle : property traffic)
    (acts : ∀ {call}, traffic.calls[channel]? = some call → property (act call)) :
    property ((traffic.calls[channel]?).elim traffic act) := by
  cases found : traffic.calls[channel]? with
  | none => exact idle
  | some call => exact acts found

theorem Moves.length {after : Traffic} (moves : Moves traffic channel call after) :
    after.calls.length = traffic.calls.length := by
  rcases moves with rfl | ⟨client, next, written, _, rfl⟩
  · rfl
  · exact List.length_set

theorem length_receive (traffic : Traffic) (frame : ResponseFrame) :
    (traffic.receive frame).calls.length = traffic.calls.length := by
  unfold receive
  split
  · rfl
  · exact List.length_modify _ _ _

theorem Moves.change {after : Traffic} (found : traffic.calls[channel]? = some call)
    (moves : Moves traffic channel call after) : Change traffic after := by
  rcases moves with rfl | ⟨client, next, written, move, rfl⟩
  · exact .idle
  · exact .move found move

theorem change_step (traffic : Traffic) (event : Event) : Change traffic (traffic.step event) := by
  cases event with
  | draw method body => exact .draw method body
  | register channel =>
    exact elim_call (Change traffic) .idle fun found => (moves_register ..).change found
  | write channel fault =>
    exact elim_call (Change traffic) .idle fun found => (moves_write ..).change found
  | forget channel =>
    exact elim_call (Change traffic) .idle fun found => (moves_forget ..).change found
  | read found =>
    cases found with
    | frame frame => exact .receive frame
    | closed => exact .disconnect
    | failed => exact .disconnect
  | close => exact .disconnect

/-! ## Calls and their places -/

theorem getElem?_draw {method : String} {body : Bytes}
    (found : (traffic.draw method body).calls[channel]? = some call) :
    traffic.calls[channel]? = some call ∨
      (channel = traffic.calls.length ∧
        call = ⟨traffic.client.nextSeq, method, body, .drawn, 0, none⟩) := by
  simp only [draw, Client.draw, List.getElem?_append] at found
  split at found
  · exact .inl found
  · rw [List.getElem?_singleton] at found
    split at found
    · cases found
      exact .inr ⟨by omega, rfl⟩
    · cases found

theorem getElem?_draw_of_found (found : traffic.calls[channel]? = some call) (method : String)
    (body : Bytes) : (traffic.draw method body).calls[channel]? = some call :=
  (List.getElem?_append_left (List.getElem?_eq_some_iff.mp found).1).trans found

theorem getElem?_put {next found : Call}
    (foundAt : (traffic.calls.set channel next)[other]? = some found) :
    (other = channel ∧ found = next) ∨
      (other ≠ channel ∧ traffic.calls[other]? = some found) := by
  rw [List.getElem?_set] at foundAt
  split at foundAt
  · rename_i same
    split at foundAt
    · cases foundAt
      exact .inl ⟨same.symm, rfl⟩
    · cases foundAt
  · rename_i different
    exact .inr ⟨Ne.symm different, foundAt⟩

/-- A reply that arrives changes nothing about a call but the reply that it holds. -/
theorem getElem?_receive (traffic : Traffic) (frame : ResponseFrame) (channel : Nat) :
    ∃ held : Call → Option (Nat × ResponseFrame), (traffic.receive frame).calls[channel]? =
      (traffic.calls[channel]?).map fun call => { call with held := held call } := by
  unfold receive
  split
  · exact ⟨Call.held, Option.map_id'.symm⟩
  · rename_i client place _
    refine ⟨fun call =>
      if place = channel then some (traffic.arrived.length, frame) else call.held, ?_⟩
    rw [List.getElem?_modify]
    by_cases same : place = channel
    · simp only [same, if_true]
      rfl
    · simp only [same, if_false]
      rfl

theorem closed_receive (traffic : Traffic) (frame : ResponseFrame) :
    (traffic.receive frame).client.closed = traffic.client.closed := by
  unfold receive
  split
  · rfl
  · rename_i client place matched
    obtain ⟨_, rfl⟩ := Client.receive?_some matched
    rfl

/-! ## Runs -/

theorem run_concat (events : List Event) (event : Event) :
    run (events ++ [event]) = (run events).step event := by
  rw [run, List.foldl_append]
  rfl

theorem length_change {after : Traffic} (change : Change traffic after) :
    traffic.calls.length ≤ after.calls.length := by
  cases change with
  | idle => exact Nat.le_refl _
  | draw method body =>
    simp only [draw, List.length_append]
    exact Nat.le_add_right _ _
  | move => exact Nat.le_of_eq List.length_set.symm
  | receive frame => exact Nat.le_of_eq (length_receive traffic frame).symm
  | disconnect => exact Nat.le_refl _

theorem length_run_le (events later : List Event) :
    (run events).calls.length ≤ (run (events ++ later)).calls.length := by
  induction later using List.reverseRecOn with
  | nil =>
    have same : run (events ++ []) = run events := congrArg run (List.append_nil events)
    exact Nat.le_of_eq (congrArg (fun traffic => traffic.calls.length) same.symm)
  | append_singleton later event ih =>
    rw [← List.append_assoc, run_concat]
    exact Nat.le_trans ih (length_change (change_step _ event))

end Traffic

end PluginBridge
