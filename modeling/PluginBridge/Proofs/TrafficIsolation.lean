import PluginBridge.Proofs.TrafficResults

/-! A call whose frame is too large leaves no trace: without its steps, the other calls, the bytes
that are written and, once it has failed, the channels of the client are the same. -/

namespace PluginBridge

namespace Traffic

variable {traffic : Traffic} {channel other : Nat} {call : Call}

/-! ## Traffic without the steps of a call -/

def Call.anew (call : Call) : Call :=
  ⟨call.seq, call.method, call.body, .drawn, 0, none⟩

/-- The traffic without what a call has done since it drew its number. -/
def without (traffic : Traffic) (channel : Nat) : Traffic :=
  (traffic.calls[channel]?).elim traffic fun call =>
    traffic.moved channel (traffic.client.forget call.seq) call.anew traffic.written

/-- The event is a step of the call behind the drawing of its number. -/
def Event.isOf (event : Event) (channel : Nat) : Bool :=
  match event with
  | .register place | .write place _ | .forget place => place == channel
  | .draw .. | .read _ | .close => false

theorem without_of_found (found : traffic.calls[channel]? = some call) :
    traffic.without channel =
      traffic.moved channel (traffic.client.forget call.seq) call.anew traffic.written := by
  rw [without, found]
  rfl

theorem without_of_none (absent : traffic.calls[channel]? = none) :
    traffic.without channel = traffic := by
  rw [without, absent]
  rfl

/-- A change of the call, of its channel and of the reply in it is gone without its steps. -/
theorem without_moved_self (found : traffic.calls[channel]? = some call) {client : Client}
    {next : Call} (same : next.anew = call.anew)
    (forgot : client.forget call.seq = traffic.client.forget call.seq) :
    (traffic.moved channel client next traffic.written).without channel =
      traffic.without channel := by
  have numbered : next.seq = call.seq := (congrArg Call.seq same :)
  have there : (traffic.moved channel client next traffic.written).calls[channel]? = some next :=
    List.getElem?_set_self (List.getElem?_eq_some_iff.mp found).1
  rw [without_of_found there, without_of_found found, same, numbered]
  simp only [moved, forgot, List.set_set]

/-- A call whose frame is too large leaves no trace of its steps. -/
theorem without_moves (found : traffic.calls[channel]? = some call)
    (large : ¬ Frame.Fits RequestFrame.form call.request) {after : Traffic}
    (moves : Moves traffic channel call after) :
    after.without channel = traffic.without channel := by
  rcases moves with rfl | ⟨client, next, written, move, rfl⟩
  · rfl
  · cases move with
    | refuse => exact without_moved_self found rfl rfl
    | register => exact without_moved_self found rfl (Client.forget_cons _ _ _)
    | send registered fits => exact absurd fits large
    | fail registered error bytes silent =>
      rw [(silent large).2, List.append_nil]
      exact without_moved_self found rfl rfl
    | remove => exact without_moved_self found rfl (Client.forget_forget _ _)

theorem without_step_self {event : Event} (own : event.isOf channel = true)
    (large : ∀ {call}, traffic.calls[channel]? = some call →
      ¬ Frame.Fits RequestFrame.form call.request) :
    (traffic.step event).without channel = traffic.without channel := by
  let Same (after : Traffic) : Prop := after.without channel = traffic.without channel
  cases event with
  | draw | read | close => cases own
  | register place =>
    obtain rfl : place = channel := beq_iff_eq.mp own
    exact elim_call Same rfl fun found => without_moves found (large found) (moves_register ..)
  | write place fault =>
    obtain rfl : place = channel := beq_iff_eq.mp own
    exact elim_call Same rfl fun found => without_moves found (large found) (moves_write ..)
  | forget place =>
    obtain rfl : place = channel := beq_iff_eq.mp own
    exact elim_call Same rfl fun found => without_moves found (large found) (moves_forget ..)

/-- What happens to another call is the same without the steps of this one. -/
theorem without_moved_other (found : traffic.calls[channel]? = some call)
    (different : other ≠ channel) (client : Client) (next : Call) (written : Bytes) :
    (traffic.moved other client next written).without channel =
      (traffic.without channel).moved other (client.forget call.seq) next written := by
  have there : (traffic.moved other client next written).calls[channel]? = some call :=
    (List.getElem?_set_ne different).trans found
  rw [without_of_found there, without_of_found found]
  simp only [moved, List.set_comm _ _ different]

theorem getElem?_without (found : traffic.calls[channel]? = some call)
    (different : other ≠ channel) :
    (traffic.without channel).calls[other]? = traffic.calls[other]? := by
  rw [without_of_found found]
  exact List.getElem?_set_ne (Ne.symm different)

theorem client_without (found : traffic.calls[channel]? = some call) :
    (traffic.without channel).client = traffic.client.forget call.seq := by
  rw [without_of_found found]
  rfl

theorem register_without (found : traffic.calls[channel]? = some call)
    (different : other ≠ channel) {caller : Call} (foreign : caller.seq ≠ call.seq) :
    (traffic.register other caller).without channel =
      (traffic.without channel).register other caller := by
  unfold register
  rw [client_without found, Client.register?_forget foreign]
  split
  · cases traffic.client.register? caller.seq other with
    | none =>
      refine (without_moved_other found different traffic.client _ traffic.written).trans ?_
      rw [without_of_found found]
      rfl
    | some client =>
      refine (without_moved_other found different client _ traffic.written).trans ?_
      rw [without_of_found found]
      rfl
  · rfl

theorem write_without (found : traffic.calls[channel]? = some call) (different : other ≠ channel)
    (fault : Option (IoError × Nat)) (caller : Call) :
    (traffic.write other fault caller).without channel =
      (traffic.without channel).write other fault caller := by
  unfold write
  split
  · split
    all_goals
      refine (without_moved_other found different traffic.client _ _).trans ?_
      rw [without_of_found found]
      rfl
  · rfl

theorem forget_without (found : traffic.calls[channel]? = some call) (different : other ≠ channel)
    (caller : Call) :
    (traffic.forget other caller).without channel =
      (traffic.without channel).forget other caller := by
  unfold forget
  split
  · refine (without_moved_other found different _ _ traffic.written).trans ?_
    rw [Client.forget_comm, without_of_found found]
    rfl
  · rfl

theorem without_arrive (traffic : Traffic) (channel : Nat) (frame : ResponseFrame) :
    (traffic.arrive frame).without channel = (traffic.without channel).arrive frame := by
  unfold without
  rw [show (traffic.arrive frame).calls = traffic.calls from rfl]
  cases traffic.calls[channel]? with
  | none => rfl
  | some call => rfl

/-- A reply that the call takes is for nobody without its steps. -/
theorem receive_without (sound : Sound traffic) (few : traffic.calls.length < 2 ^ 64)
    (found : traffic.calls[channel]? = some call) (frame : ResponseFrame) :
    (traffic.receive frame).without channel = (traffic.without channel).receive frame := by
  cases matched : traffic.client.receive? frame.seq with
  | none =>
    have nobody : (traffic.without channel).client.receive? frame.seq = none := by
      rw [client_without found]
      exact Client.receive?_forget_none matched
    rw [receive_of_unmatched matched, receive_of_unmatched nobody, without_arrive]
  | some pair =>
    obtain ⟨client, place⟩ := pair
    obtain ⟨member, rfl⟩ := Client.receive?_some matched
    obtain ⟨owner, ownerAt, numbered⟩ := sound.entry member
    rw [receive_of_matched matched ownerAt]
    by_cases same : place = channel
    · rw [same] at ownerAt ⊢
      obtain rfl : owner = call := Option.some.inj (ownerAt.symm.trans found)
      have nobody : (traffic.without channel).client.receive? frame.seq = none := by
        rw [client_without found, numbered]
        exact Client.receive?_forget_self _ _
      have foundThen : (traffic.arrive frame).calls[channel]? = some owner := found
      have gone : Call.anew { owner with held := some (traffic.arrived.length, frame) } =
          owner.anew := rfl
      rw [receive_of_unmatched nobody, ← numbered, ← without_arrive]
      exact without_moved_self foundThen gone (Client.forget_forget _ _)
    · have different : frame.seq ≠ call.seq := fun equal =>
        same (sound.channel_eq few ownerAt found (numbered.trans equal))
      have ownerStays := (getElem?_without found same).trans ownerAt
      have stays : (traffic.without channel).client.receive? frame.seq =
          some ((traffic.client.forget frame.seq).forget call.seq, place) := by
        rw [client_without found, Client.receive?_forget different, matched]
        rfl
      have foundThen : (traffic.arrive frame).calls[channel]? = some call := found
      rw [receive_of_matched stays ownerStays]
      refine (without_moved_other foundThen same _ _ _).trans ?_
      rw [without_arrive, without_of_found found]
      rfl

/-- A call that has not drawn its number has no channel under it. -/
theorem draw_without (sound : Sound traffic) (method : String) (body : Bytes)
    (few : (traffic.draw method body).calls.length < 2 ^ 64) :
    (traffic.draw method body).without channel = (traffic.without channel).draw method body := by
  cases found : traffic.calls[channel]? with
  | none =>
    rw [without_of_none found]
    cases drawn : (traffic.draw method body).calls[channel]? with
    | none => exact without_of_none drawn
    | some call =>
      rcases getElem?_draw drawn with before | ⟨rfl, rfl⟩
      · cases found.symm.trans before
      · have fresh : ∀ place, (traffic.client.nextSeq, place) ∉ traffic.client.waiting := by
          intro place member
          obtain ⟨owner, ownerAt, numbered⟩ := sound.entry member
          obtain ⟨inside, _⟩ := List.getElem?_eq_some_iff.mp ownerAt
          rw [sound.number ownerAt, sound.next] at numbered
          rw [draw, List.length_append, List.length_singleton] at few
          have places := Numbering.ofNat_injective (by omega) few numbered
          omega
        have kept : Client.forget (traffic.draw method body).client traffic.client.nextSeq =
            (traffic.draw method body).client := Client.forget_of_not_mem fresh
        rw [without_of_found drawn, kept]
        simp only [moved, draw, Client.draw, Call.anew,
          List.set_append_right _ _ (Nat.le_refl _), Nat.sub_self, List.set_cons_zero]
  | some call =>
    obtain ⟨inside, _⟩ := List.getElem?_eq_some_iff.mp found
    have there := getElem?_draw_of_found found method body
    rw [without_of_found found, without_of_found there]
    simp only [moved, draw, Client.draw, Client.forget, List.set_append_left _ _ inside]

theorem without_of_length {after : Traffic} (absent : traffic.calls[channel]? = none)
    (same : after.calls.length = traffic.calls.length) : after.without channel = after := by
  rw [List.getElem?_eq_none_iff, ← same] at absent
  exact without_of_none (List.getElem?_eq_none_iff.mpr absent)

/-- A step of another call is the same without the steps of this one. -/
theorem without_call (act : Traffic → Call → Traffic) (different : other ≠ channel)
    (length : ∀ caller, (act traffic caller).calls.length = traffic.calls.length)
    (commutes : ∀ {call caller}, traffic.calls[channel]? = some call →
      traffic.calls[other]? = some caller →
      (act traffic caller).without channel = act (traffic.without channel) caller) :
    ((traffic.calls[other]?).elim traffic (act traffic)).without channel =
      ((traffic.without channel).calls[other]?).elim (traffic.without channel)
        (act (traffic.without channel)) := by
  cases found : traffic.calls[channel]? with
  | none =>
    have same : ((traffic.calls[other]?).elim traffic (act traffic)).calls.length =
        traffic.calls.length :=
      elim_call (fun after => after.calls.length = traffic.calls.length) rfl fun _ => length _
    rw [without_of_length found same, without_of_none found]
  | some call =>
    rw [getElem?_without found different]
    cases callerAt : traffic.calls[other]? with
    | none => rfl
    | some caller => exact commutes found callerAt

theorem disconnect_without (traffic : Traffic) (channel : Nat) :
    traffic.disconnect.without channel = (traffic.without channel).disconnect := by
  unfold without disconnect
  cases traffic.calls[channel]? with
  | none => rfl
  | some call => rfl

theorem without_step_other (sound : Sound traffic) {event : Event}
    (few : (traffic.step event).calls.length < 2 ^ 64) (foreign : event.isOf channel = false) :
    (traffic.step event).without channel = (traffic.without channel).step event := by
  have fewer := Nat.lt_of_le_of_lt (length_change (change_step traffic event)) few
  cases event with
  | draw method body => exact draw_without sound method body few
  | register place =>
    have different : place ≠ channel := beq_eq_false_iff_ne.mp foreign
    refine without_call (fun traffic => traffic.register place) different
      (fun _ => (moves_register ..).length) ?_
    intro call caller found callerAt
    refine register_without found different ?_
    exact fun same => different (sound.channel_eq fewer callerAt found same)
  | write place fault =>
    have different : place ≠ channel := beq_eq_false_iff_ne.mp foreign
    exact without_call (fun traffic => traffic.write place fault) different
      (fun _ => (moves_write ..).length) fun found _ => write_without found different fault _
  | forget place =>
    have different : place ≠ channel := beq_eq_false_iff_ne.mp foreign
    exact without_call (fun traffic => traffic.forget place) different
      (fun _ => (moves_forget ..).length) fun found _ => forget_without found different _
  | read found =>
    cases found with
    | frame frame =>
      cases found : traffic.calls[channel]? with
      | none =>
        rw [without_of_none found]
        exact without_of_length found (length_receive traffic frame)
      | some call => exact receive_without sound fewer found frame
    | closed => exact disconnect_without traffic channel
    | failed => exact disconnect_without traffic channel
  | close => exact disconnect_without traffic channel

theorem request_change {after : Traffic} (change : Change traffic after)
    (found : traffic.calls[channel]? = some call) :
    ∃ next, after.calls[channel]? = some next ∧ next.request = call.request := by
  cases change with
  | idle => exact ⟨call, found, rfl⟩
  | draw method body =>
    exact ⟨call, getElem?_draw_of_found found method body, rfl⟩
  | move callAt move =>
    rename_i place mover next client written
    by_cases same : place = channel
    · rw [same] at callAt ⊢
      obtain rfl : mover = call := Option.some.inj (callAt.symm.trans found)
      refine ⟨next, List.getElem?_set_self (List.getElem?_eq_some_iff.mp found).1, ?_⟩
      cases move <;> rfl
    · exact ⟨call, (List.getElem?_set_ne same).trans found, rfl⟩
  | receive frame =>
    obtain ⟨held, same⟩ := getElem?_receive traffic frame channel
    rw [same, found]
    exact ⟨_, rfl, rfl⟩
  | disconnect => exact ⟨call, found, rfl⟩

theorem without_run (events : List Event) (few : (run events).calls.length < 2 ^ 64)
    (large : ∀ {call}, (run events).calls[channel]? = some call →
      ¬ Frame.Fits RequestFrame.form call.request) :
    (run events).without channel = run (events.filter fun event => !event.isOf channel) := by
  induction events using List.reverseRecOn with
  | nil => rfl
  | append_singleton events event ih =>
    rw [run_concat] at few large ⊢
    have change := change_step (run events) event
    have fewer := Nat.lt_of_le_of_lt (length_change change) few
    have largeBefore : ∀ {call}, (run events).calls[channel]? = some call →
        ¬ Frame.Fits RequestFrame.form call.request := by
      intro call found
      obtain ⟨next, nextAt, same⟩ := request_change change found
      rw [← same]
      exact large nextAt
    rw [List.filter_append, List.filter_singleton]
    cases own : event.isOf channel with
    | true =>
      rw [without_step_self own largeBefore, ih fewer largeBefore]
      exact congrArg run (List.append_nil _).symm
    | false =>
      rw [without_step_other (sound_run events fewer) few own, ih fewer largeBefore]
      exact (run_concat _ event).symm

/-! ## Calls with frames that are too large -/

/-- A call whose frame is too large is never sent, and it fails with the size of the frame. -/
structure Call.Told (call : Call) : Prop where
  sent : call.stage = .sent → Frame.Fits RequestFrame.form call.request
  error : ∀ {error}, call.stage = .broken error ∨ call.stage = .failed error →
    ¬ Frame.Fits RequestFrame.form call.request →
    error = .frameTooLarge (RequestFrame.form.write call.request).length

theorem Call.Told.move (told : call.Told) {client : Client} {next : Call} {written : Bytes}
    (move : Move traffic channel call client next written) : next.Told := by
  cases move with
  | refuse | register => exact ⟨nofun, nofun⟩
  | send registered fits => exact ⟨fun _ => fits, nofun⟩
  | fail registered error bytes silent =>
    refine ⟨nofun, ?_⟩
    rintro _ (⟨⟨⟩⟩ | ⟨⟨⟩⟩) large
    exact (silent large).1
  | remove error broken =>
    refine ⟨nofun, ?_⟩
    rintro _ (⟨⟨⟩⟩ | ⟨⟨⟩⟩) large
    exact told.error (.inl broken) large

theorem told_change {after : Traffic} (change : Change traffic after)
    (told : ∀ {channel : Nat} {call : Call}, traffic.calls[channel]? = some call → call.Told)
    (found : after.calls[channel]? = some call) : call.Told := by
  cases change with
  | idle => exact told found
  | draw method body =>
    rcases getElem?_draw found with before | ⟨_, rfl⟩
    · exact told before
    · exact ⟨nofun, nofun⟩
  | move callAt move =>
    rcases getElem?_put found with ⟨_, rfl⟩ | ⟨_, before⟩
    · exact (told callAt).move move
    · exact told before
  | receive frame =>
    obtain ⟨held, same⟩ := getElem?_receive traffic frame _
    rw [same, Option.map_eq_some_iff] at found
    obtain ⟨before, beforeAt, rfl⟩ := found
    exact ⟨(told beforeAt).sent, (told beforeAt).error⟩
  | disconnect => exact told found

theorem told_run (events : List Event) (found : (run events).calls[channel]? = some call) :
    call.Told := by
  induction events using List.reverseRecOn generalizing channel call with
  | nil => cases found
  | append_singleton events event ih =>
    rw [run_concat] at found
    exact told_change (change_step _ event) ih found

/-- How a call whose frame is too large can end. -/
theorem Call.Told.result (told : call.Told) (large : ¬ Frame.Fits RequestFrame.form call.request)
    {waits : Bool} {result : Except TransportError ResponseFrame}
    (returned : call.result? waits = some result) :
    call.stage.isOpen = false ∧
      (result = .error (.frameTooLarge (RequestFrame.form.write call.request).length) ∨
        result = .error .connectionClosed) := by
  unfold Call.result? at returned
  split at returned
  · rename_i refused
    cases returned
    rw [refused]
    exact ⟨rfl, .inr rfl⟩
  · rename_i failed
    cases returned
    rw [told.error (.inr failed) large, failed]
    exact ⟨rfl, .inl rfl⟩
  · rename_i sent _
    exact absurd (told.sent sent) large
  · rename_i sent _
    exact absurd (told.sent sent) large
  · cases returned

/-- Two traffics differ in one call and its channel at most, and if the call has returned, in the
call alone. -/
structure Untouched (traffic quiet : Traffic) (channel : Nat) : Prop where
  written : traffic.written = quiet.written
  arrived : traffic.arrived = quiet.arrived
  others : ∀ {other}, other ≠ channel → traffic.calls[other]? = quiet.calls[other]?
  channels : ∀ {seq other}, other ≠ channel →
    ((seq, other) ∈ traffic.client.waiting ↔ (seq, other) ∈ quiet.client.waiting)
  outcomes : ∀ {other}, other ≠ channel → traffic.outcome? other = quiet.outcome? other
  returned : traffic.outcome? channel ≠ none → traffic.client = quiet.client

theorem untouched_without (sound : Sound traffic) (few : traffic.calls.length < 2 ^ 64)
    (found : traffic.calls[channel]? = some call) (told : call.Told)
    (large : ¬ Frame.Fits RequestFrame.form call.request) :
    Untouched traffic (traffic.without channel) channel := by
  have others : ∀ {other}, other ≠ channel →
      traffic.calls[other]? = (traffic.without channel).calls[other]? :=
    fun different => (getElem?_without found different).symm
  have channels : ∀ {seq other}, other ≠ channel → ((seq, other) ∈ traffic.client.waiting ↔
      (seq, other) ∈ (traffic.without channel).client.waiting) := by
    intro seq other different
    rw [client_without found, Client.mem_forget, iff_self_and]
    intro member same
    rw [same] at member
    exact different (sound.entry_eq few found member)
  constructor
  · rw [without_of_found found]
    rfl
  · rw [without_of_found found]
    rfl
  · exact others
  · exact channels
  · intro other different
    have same : traffic.waits other = (traffic.without channel).waits other := by
      rw [Bool.eq_iff_iff, waits_iff, waits_iff]
      exact exists_congr fun seq => channels different
    rw [outcome?, outcome?, ← others different, same]
  · intro returned
    obtain ⟨result, settled⟩ := Option.ne_none_iff_exists'.mp returned
    obtain ⟨owner, ownerAt, settledCall⟩ := outcome?_eq_some.mp settled
    obtain rfl : owner = call := Option.some.inj (ownerAt.symm.trans found)
    have shut := (told.result large settledCall).1
    have absent : ∀ place, (owner.seq, place) ∉ traffic.client.waiting := by
      intro place member
      rw [sound.entry_eq few found member] at member
      exact absurd ((sound.call found).waiting member).1 (by rw [shut]; exact Bool.false_ne_true)
    rw [client_without found, Client.forget_of_not_mem absent]

/-- Calls that share a connection do not mix, however their steps, the replies and the end of the
connection follow each other: the traffic is safe; a call that has returned keeps its result; a call
whose frame is too large returns that failure, if the connection is not closed, and changes nothing
but itself; and on a closed connection no later call is registered. -/
theorem run_safe (events later : List Event)
    (few : (run (events ++ later)).calls.length < 2 ^ 64) :
    Safe (run events) ∧
      (∀ {channel result}, (run events).outcome? channel = some result →
        (run (events ++ later)).outcome? channel = some result) ∧
      (∀ {channel} {call : Call}, (run events).calls[channel]? = some call →
        ¬ Frame.Fits RequestFrame.form call.request →
        Untouched (run events) (run (events.filter fun event => !event.isOf channel)) channel ∧
          ∀ {result}, (run events).outcome? channel = some result →
            result = .error (.frameTooLarge (RequestFrame.form.write call.request).length) ∨
              result = .error .connectionClosed) ∧
      ((run events).client.closed = true → (run (events ++ later)).client.closed = true ∧
        NoneRegistered (run events) (run (events ++ later))) := by
  have fewer : (run events).calls.length < 2 ^ 64 :=
    Nat.lt_of_le_of_lt (length_run_le events later) few
  have sound := sound_run events fewer
  refine ⟨sound.safe fewer, fun returned => outcome_run events later few returned, ?_,
    closed_run events later⟩
  intro channel call found large
  have largeThere : ∀ {there : Call}, (run events).calls[channel]? = some there →
      ¬ Frame.Fits RequestFrame.form there.request := by
    intro there thereAt
    obtain rfl : there = call := Option.some.inj (thereAt.symm.trans found)
    exact large
  constructor
  · rw [← without_run events fewer largeThere]
    exact untouched_without sound fewer found (told_run events found) large
  · intro result returned
    obtain ⟨owner, ownerAt, settled⟩ := outcome?_eq_some.mp returned
    obtain rfl : owner = call := Option.some.inj (ownerAt.symm.trans found)
    exact ((told_run events found).result large settled).2

section Example

/-- Two calls whose replies cross; a reply for nobody comes between them, and one comes again. -/
def crossing : List Event :=
  [.draw "Data.Execute" [], .register 0, .draw "Data.Cancel" [], .write 0 none, .register 1,
    .write 1 none, .read (.frame ⟨2, [7], none⟩), .read (.frame ⟨9, [], none⟩),
    .read (.frame ⟨1, [8], none⟩), .read (.frame ⟨1, [9], none⟩)]

def closing : List Event :=
  [.draw "Data.Execute" [], .close, .register 2]

theorem run_safe_crossing :
    Safe (run crossing) ∧ (run (crossing ++ closing)).outcome? 0 = some (.ok ⟨1, [8], none⟩) ∧
      (run (crossing ++ closing)).outcome? 1 = some (.ok ⟨2, [7], none⟩) ∧
      (run (crossing ++ closing)).outcome? 2 = some (.error .connectionClosed) := by
  have few : (run (crossing ++ closing)).calls.length < 2 ^ 64 := by decide
  obtain ⟨safe, kept, _, _⟩ := run_safe crossing closing few
  exact ⟨safe, kept rfl, kept rfl, rfl⟩

end Example

end Traffic

end PluginBridge
