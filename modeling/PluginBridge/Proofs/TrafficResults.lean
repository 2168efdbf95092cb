import PluginBridge.Proofs.TrafficSound

/-! What calls come to: a result is kept, and the end of a connection leaves nobody waiting. -/

namespace PluginBridge

namespace Traffic

variable {traffic : Traffic} {channel other : Nat} {call : Call}

/-! ## Results -/

theorem waits_iff : traffic.waits channel = true ↔
    ∃ seq, (seq, channel) ∈ traffic.client.waiting := by
  rw [waits, List.any_eq_true]
  constructor
  · rintro ⟨⟨seq, place⟩, member, same⟩
    obtain rfl : place = channel := beq_iff_eq.mp same
    exact ⟨seq, member⟩
  · rintro ⟨seq, member⟩
    exact ⟨(seq, channel), member, beq_self_eq_true channel⟩

theorem outcome?_eq_some {result : Except TransportError ResponseFrame} :
    traffic.outcome? channel = some result ↔ ∃ call, traffic.calls[channel]? = some call ∧
      call.result? (traffic.waits channel) = some result := by
  rw [outcome?, Option.bind_eq_some_iff]

/-- The result of a call does not change when the channel is dropped. -/
theorem Call.result?_mono {waits later : Bool} {result : Except TransportError ResponseFrame}
    (returned : call.result? waits = some result) (dropped : later = true → waits = true) :
    call.result? later = some result := by
  unfold Call.result? at returned ⊢
  split at returned
  · exact returned
  · exact returned
  · exact returned
  · split at returned
    · cases returned
    · rename_i gone
      rw [if_neg fun still => gone (dropped still)]
      exact returned
  · cases returned

theorem Call.result?_ok {waits : Bool} {frame : ResponseFrame}
    (returned : call.result? waits = some (.ok frame)) :
    call.stage = .sent ∧ ∃ place, call.held = some (place, frame) := by
  unfold Call.result? at returned
  split at returned
  · cases returned
  · cases returned
  · rename_i place _ sent held
    cases returned
    exact ⟨sent, place, held⟩
  · split at returned
    · cases returned
    · cases returned
  · cases returned

/-- A call that takes a step has not returned. -/
theorem Move.unreturned {client : Client} {next : Call} {written : Bytes}
    (move : Move traffic channel call client next written) (waits : Bool) :
    call.result? waits = none := by
  cases move with
  | refuse drawn => rw [Call.result?, drawn]
  | register drawn => rw [Call.result?, drawn]
  | send registered => rw [Call.result?, registered]
  | fail registered => rw [Call.result?, registered]
  | remove error broken => rw [Call.result?, broken]

theorem Move.waiting {client : Client} {next : Call} {written : Bytes}
    (move : Move traffic channel call client next written) (different : other ≠ channel)
    {seq : UInt64} (member : (seq, other) ∈ client.waiting) :
    (seq, other) ∈ traffic.client.waiting := by
  cases move with
  | refuse => exact member
  | register =>
    rcases List.mem_cons.mp member with same | kept
    · exact absurd (congrArg Prod.snd same) different
    · exact (Client.mem_forget.mp kept).1
  | send => exact member
  | fail => exact member
  | remove => exact (Client.mem_forget.mp member).1

theorem Sound.unreturned (sound : Sound traffic) (found : traffic.calls[channel]? = some call)
    {seq : UInt64} (member : (seq, channel) ∈ traffic.client.waiting) :
    call.result? (traffic.waits channel) = none := by
  obtain ⟨owner, ownerAt, rfl⟩ := sound.entry member
  obtain rfl : owner = call := Option.some.inj (ownerAt.symm.trans found)
  obtain ⟨open_, unheld, _⟩ := (sound.call found).waiting member
  rw [Call.result?, unheld, waits_iff.mpr ⟨_, member⟩]
  cases stage : owner.stage with
  | refused | failed =>
    rw [stage] at open_
    cases open_
  | drawn | registered | sent | broken => rfl

/-- A call that has returned keeps its result. -/
theorem Sound.outcome_change (sound : Sound traffic) {after : Traffic}
    (change : Change traffic after) {result : Except TransportError ResponseFrame}
    (returned : traffic.outcome? channel = some result) : after.outcome? channel = some result := by
  obtain ⟨call, found, settled⟩ := outcome?_eq_some.mp returned
  cases change with
  | idle => exact returned
  | draw method body =>
    exact outcome?_eq_some.mpr ⟨call, getElem?_draw_of_found found method body, settled⟩
  | move foundMoved move =>
    rename_i place mover next client written
    by_cases same : channel = place
    · rw [← same, found] at foundMoved
      cases foundMoved
      cases settled.symm.trans (move.unreturned _)
    · refine outcome?_eq_some.mpr ⟨call, (List.getElem?_set_ne (Ne.symm same)).trans found, ?_⟩
      refine Call.result?_mono settled fun still => ?_
      obtain ⟨seq, member⟩ := waits_iff.mp still
      exact waits_iff.mpr ⟨seq, move.waiting same member⟩
  | receive frame =>
    unfold Traffic.receive
    split
    · exact outcome?_eq_some.mpr ⟨call, found, settled⟩
    · rename_i client place matched
      obtain ⟨member, rfl⟩ := Client.receive?_some matched
      by_cases same : channel = place
      · rw [← same] at member
        cases settled.symm.trans (sound.unreturned found member)
      · refine outcome?_eq_some.mpr
          ⟨call, (List.getElem?_modify_ne _ _ (Ne.symm same)).trans found, ?_⟩
        refine Call.result?_mono settled fun still => ?_
        obtain ⟨seq, kept⟩ := waits_iff.mp still
        exact waits_iff.mpr ⟨seq, (Client.mem_forget.mp kept).1⟩
  | disconnect =>
    refine outcome?_eq_some.mpr ⟨call, found, Call.result?_mono settled fun still => ?_⟩
    obtain ⟨seq, member⟩ := waits_iff.mp still
    cases member

theorem outcome_run (events later : List Event)
    (few : (run (events ++ later)).calls.length < 2 ^ 64)
    {result : Except TransportError ResponseFrame}
    (returned : (run events).outcome? channel = some result) :
    (run (events ++ later)).outcome? channel = some result := by
  induction later using List.reverseRecOn with
  | nil =>
    rw [List.append_nil]
    exact returned
  | append_singleton later event ih =>
    rw [← List.append_assoc, run_concat] at few ⊢
    have change := change_step (run (events ++ later)) event
    have fewer := Nat.lt_of_le_of_lt (length_change change) few
    exact (sound_run _ fewer).outcome_change change (ih fewer)

/-! ## The end of a connection -/

def NoneRegistered (traffic after : Traffic) : Prop :=
  ∀ (channel : Nat) (call : Call), after.calls[channel]? = some call →
    call.stage.isRegistered = true →
    ∃ before : Call, traffic.calls[channel]? = some before ∧ before.stage.isRegistered = true

theorem noneRegistered_self : NoneRegistered traffic traffic :=
  fun _ call found registered => ⟨call, found, registered⟩

theorem closed_change {after : Traffic} (change : Change traffic after)
    (closed : traffic.client.closed = true) :
    after.client.closed = true ∧ NoneRegistered traffic after := by
  cases change with
  | idle => exact ⟨closed, noneRegistered_self⟩
  | draw method body =>
    refine ⟨closed, ?_⟩
    intro channel call found registered
    rcases getElem?_draw found with before | ⟨_, rfl⟩
    · exact ⟨call, before, registered⟩
    · cases registered
  | move found move =>
    rename_i place mover next client written
    constructor
    · cases move with
      | register drawn open_ => cases open_.symm.trans closed
      | _ => exact closed
    · intro channel call callAt registered
      rcases getElem?_put callAt with ⟨rfl, rfl⟩ | ⟨_, before⟩
      · refine ⟨mover, found, ?_⟩
        cases move with
        | refuse => cases registered
        | register drawn open_ => cases open_.symm.trans closed
        | send stage | fail stage | remove _ stage =>
          rw [stage]
          rfl
      · exact ⟨call, before, registered⟩
  | receive frame =>
    refine ⟨(closed_receive traffic frame).trans closed, ?_⟩
    intro channel call found registered
    obtain ⟨held, same⟩ := getElem?_receive traffic frame channel
    rw [same, Option.map_eq_some_iff] at found
    obtain ⟨before, beforeAt, rfl⟩ := found
    exact ⟨before, beforeAt, registered⟩
  | disconnect => exact ⟨rfl, noneRegistered_self⟩

theorem closed_run (events later : List Event) (closed : (run events).client.closed = true) :
    (run (events ++ later)).client.closed = true ∧
      NoneRegistered (run events) (run (events ++ later)) := by
  induction later using List.reverseRecOn with
  | nil =>
    rw [List.append_nil]
    exact ⟨closed, noneRegistered_self⟩
  | append_singleton later event ih =>
    rw [← List.append_assoc, run_concat]
    obtain ⟨still, before⟩ := closed_change (change_step _ event) ih.1
    refine ⟨still, ?_⟩
    intro channel call found registered
    obtain ⟨middle, middleAt, begun⟩ := before channel call found registered
    exact ih.2 channel middle middleAt begun

/-! ## Safe traffic -/

/-- Calls that share a connection are safe: their numbers differ; a call that returns a reply has
the first one with its number that arrived since it was registered; each reply goes to one call at
most; a reply that nobody waits for changes nothing; a call without a reply waits as long as the
connection is open; and on a closed connection nobody waits. -/
structure Safe (traffic : Traffic) : Prop where
  numbers : (traffic.calls.map Call.seq).Nodup
  first : ∀ {channel frame}, traffic.outcome? channel = some (.ok frame) →
    ∃ call place, traffic.calls[channel]? = some call ∧ call.held = some (place, frame) ∧
      call.since ≤ place ∧ traffic.arrived[place]? = some frame ∧ frame.seq = call.seq ∧
      ∀ earlier ∈ (traffic.arrived.take place).drop call.since, earlier.seq ≠ call.seq
  once : ∀ {channel other place : Nat} {call rival : Call} {frame copy : ResponseFrame},
    traffic.calls[channel]? = some call → traffic.calls[other]? = some rival →
    call.held = some (place, frame) → rival.held = some (place, copy) → channel = other
  unmatched : ∀ {frame}, (∀ {channel} {call : Call}, traffic.calls[channel]? = some call →
      traffic.waits channel = true → call.seq ≠ frame.seq) →
    traffic.receive frame = { traffic with arrived := traffic.arrived ++ [frame] }
  waiting : traffic.client.closed = false →
    ∀ {channel} {call : Call}, traffic.calls[channel]? = some call → call.stage = .sent →
      call.held = none → traffic.outcome? channel = none
  closed : traffic.client.closed = true → traffic.client.waiting = [] ∧
    ∀ {channel} {call : Call}, traffic.calls[channel]? = some call → call.stage = .sent →
      call.held = none → traffic.outcome? channel = some (.error .connectionClosed)

theorem Sound.safe (sound : Sound traffic) (few : traffic.calls.length < 2 ^ 64) :
    Safe traffic := by
  constructor
  · rw [List.Nodup, List.pairwise_iff_getElem]
    intro first second firstIn secondIn before same
    rw [List.length_map] at firstIn secondIn
    rw [List.getElem_map, List.getElem_map] at same
    have equal := sound.channel_eq few (List.getElem?_eq_getElem firstIn)
      (List.getElem?_eq_getElem secondIn) same
    omega
  · intro channel frame returned
    obtain ⟨call, found, result⟩ := outcome?_eq_some.mp returned
    obtain ⟨_, place, held⟩ := Call.result?_ok result
    exact ⟨call, place, found, held, ((sound.call found).holds held).2⟩
  · intro channel other place call rival frame copy found rivalFound held rivalHeld
    obtain ⟨_, _, there, numbered, _⟩ := (sound.call found).holds held
    obtain ⟨_, _, rivalThere, rivalNumbered, _⟩ := (sound.call rivalFound).holds rivalHeld
    cases there.symm.trans rivalThere
    exact sound.channel_eq few found rivalFound (numbered.symm.trans rivalNumbered)
  · intro frame nobody
    unfold Traffic.receive
    split
    · rfl
    · rename_i client channel matched
      obtain ⟨member, _⟩ := Client.receive?_some matched
      obtain ⟨call, found, numbered⟩ := sound.entry member
      exact absurd numbered (nobody found (waits_iff.mpr ⟨_, member⟩))
  · intro open_ channel call found sent unheld
    have member := (sound.call found).kept open_ (by rw [sent]; rfl) unheld
    rw [outcome?, found, Option.bind_some]
    exact sound.unreturned found member
  · intro closed
    refine ⟨sound.shut closed, ?_⟩
    intro channel call found sent unheld
    rw [outcome?, found, Option.bind_some, Call.result?, sent, unheld, waits, sound.shut closed]
    rfl

end Traffic

end PluginBridge
