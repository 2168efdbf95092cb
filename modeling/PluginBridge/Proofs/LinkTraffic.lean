import PluginBridge.Proofs.TrafficResults

/-! A link makes one call at a time; each is a run of the traffic of its client. -/

namespace PluginBridge

namespace Traffic

variable {traffic : Traffic} {channel : Nat} {call next : Call}

theorem run_append (events later : List Event) :
    run (events ++ later) = later.foldl step (run events) :=
  List.foldl_append

theorem getElem?_moved (found : traffic.calls[channel]? = some call) (client : Client)
    (next : Call) (written : Bytes) :
    (traffic.moved channel client next written).calls[channel]? = some next :=
  List.getElem?_set_self (List.getElem?_eq_some_iff.mp found).1

theorem step_register (found : traffic.calls[channel]? = some call) :
    traffic.step (.register channel) = traffic.register channel call := by
  rw [step, found]
  rfl

theorem step_write (found : traffic.calls[channel]? = some call)
    (fault : Option (IoError × Nat)) :
    traffic.step (.write channel fault) = traffic.write channel fault call := by
  rw [step, found]
  rfl

theorem step_forget (found : traffic.calls[channel]? = some call) :
    traffic.step (.forget channel) = traffic.forget channel call := by
  rw [step, found]
  rfl

theorem outcome?_of_found (found : traffic.calls[channel]? = some call) :
    traffic.outcome? channel = call.result? (traffic.waits channel) := by
  rw [outcome?, found]
  rfl

structure Waiting (traffic : Traffic) (channel : Nat) (call : Call) : Prop where
  found : traffic.calls[channel]? = some call
  sent : call.stage = .sent
  unheld : call.held = none
  first : traffic.client.waiting.lookup call.seq = some channel

theorem Waiting.mem (waiting : Waiting traffic channel call) :
    (call.seq, channel) ∈ traffic.client.waiting := by
  obtain ⟨before, after, split, _⟩ := List.lookup_eq_some_iff.mp waiting.first
  rw [split]
  exact List.mem_append_right _ List.mem_cons_self

theorem Waiting.outcome? (waiting : Waiting traffic channel call) {after : Traffic}
    (found : after.calls[channel]? = some call) :
    after.outcome? channel =
      if after.waits channel then none else some (.error .connectionClosed) := by
  rw [outcome?_of_found found, Call.result?, waiting.sent, waiting.unheld]

/-- A reply that is not for the call leaves it waiting. -/
theorem Waiting.foreign (waiting : Waiting traffic channel call) {frame : ResponseFrame}
    {client : Client} {place : Nat}
    (matched : traffic.client.receive? frame.seq = some (client, place))
    (different : place ≠ channel) :
    (traffic.receive frame).client = client ∧ (traffic.receive frame).outcome? channel = none := by
  have numbered : call.seq ≠ frame.seq := by
    intro same
    rw [Client.receive?, ← same, waiting.first] at matched
    cases matched
    exact different rfl
  obtain ⟨_, rfl⟩ := Client.receive?_some matched
  have found : (traffic.receive frame).calls[channel]? = some call := by
    rw [receive, matched]
    exact (List.getElem?_modify_ne _ _ different).trans waiting.found
  have same : (traffic.receive frame).client = traffic.client.forget frame.seq := by
    rw [receive, matched]
  have still : (traffic.receive frame).waits channel = true := by
    rw [waits_iff, same]
    exact ⟨call.seq, Client.mem_forget.mpr ⟨waiting.mem, numbered⟩⟩
  rw [waiting.outcome? found, if_pos still]
  exact ⟨same, rfl⟩

/-- What a link makes of the bytes that come back is what they do to the waiting call. -/
theorem Waiting.receiveReply (waiting : Waiting traffic channel call) (bytes : Bytes) :
    ∃ events : List Event, (events.foldl step traffic).client =
        (Link.receiveReply traffic.client channel bytes).1 ∧
      (events.foldl step traffic).outcome? channel =
        (Link.receiveReply traffic.client channel bytes).2 := by
  have waits : traffic.waits channel = true := waits_iff.mpr ⟨_, waiting.mem⟩
  rw [Link.receiveReply]
  split
  · rename_i frame rest read
    refine ⟨[.read (.frame frame)], ?_⟩
    change (traffic.receive frame).client = _ ∧ (traffic.receive frame).outcome? channel = _
    cases matched : traffic.client.receive? frame.seq with
    | none =>
      have found : (traffic.arrive frame).calls[channel]? = some call := waiting.found
      rw [receive_of_unmatched matched, waiting.outcome? found]
      exact ⟨rfl, if_pos waits⟩
    | some pair =>
      obtain ⟨client, place⟩ := pair
      by_cases same : place = channel
      · rw [same] at matched
        have found : (traffic.arrive frame).calls[channel]? = some call := waiting.found
        rw [receive_of_matched matched waiting.found, same]
        dsimp only
        rw [if_pos rfl, outcome?_of_found (getElem?_moved found _ _ _), Call.result?, waiting.sent]
        exact ⟨rfl, rfl⟩
      · dsimp only
        rw [if_neg same]
        exact waiting.foreign matched same
  · refine ⟨[], rfl, ?_⟩
    rw [List.foldl_nil, waiting.outcome? waiting.found, if_pos waits]
  · rename_i error rest read
    refine ⟨[.read (.failed error)], rfl, ?_⟩
    exact waiting.outcome? waiting.found

theorem toNat_nextSeq (sound : Sound traffic) (few : traffic.calls.length + 1 < 2 ^ 64) :
    traffic.client.nextSeq.toNat - 1 = traffic.calls.length := by
  rw [sound.next, UInt64.toNat_ofNat', Nat.mod_eq_of_lt few, Nat.add_sub_cancel]

theorem getElem?_drawn (traffic : Traffic) (method : String) (body : Bytes) :
    (traffic.draw method body).calls[traffic.calls.length]? =
      some ⟨traffic.client.nextSeq, method, body, .drawn, 0, none⟩ := by
  rw [draw, List.getElem?_append_right (Nat.le_refl _), Nat.sub_self]
  rfl

theorem register_refused (drawn : call.stage = .drawn)
    (refused : traffic.client.register? call.seq channel = none) :
    traffic.register channel call =
      traffic.moved channel traffic.client { call with stage := .refused } traffic.written := by
  rw [register, drawn]
  dsimp only
  rw [refused]
  rfl

theorem register_accepted (drawn : call.stage = .drawn) {client : Client}
    (accepted : traffic.client.register? call.seq channel = some client) :
    traffic.register channel call = traffic.moved channel client
      { call with stage := .registered, since := traffic.arrived.length } traffic.written := by
  rw [register, drawn]
  dsimp only
  rw [accepted]
  rfl

theorem write_error (registered : call.stage = .registered) {error : TransportError}
    (large : Frame.write RequestFrame.form call.request = .error error) :
    traffic.write channel none call =
      traffic.moved channel traffic.client { call with stage := .broken error }
        traffic.written := by
  unfold write
  simp only [registered, large]
  rfl

theorem write_ok (registered : call.stage = .registered) {bytes : Bytes}
    (framed : Frame.write RequestFrame.form call.request = .ok bytes) :
    traffic.write channel none call = traffic.moved channel traffic.client
      { call with stage := .sent } (traffic.written ++ bytes) := by
  unfold write
  simp only [registered, framed]
  rfl

theorem Sound.exists_call {σ τ : Type} (world : World τ) (sound : Sound traffic)
    (few : traffic.calls.length + 1 < 2 ^ 64) (link : Link σ) (same : link.client = traffic.client)
    (method : String) (body : Bytes) (outside : τ) :
    ∃ steps : List Event,
      (steps.foldl Traffic.step traffic).client = (link.call world method body outside).1.client ∧
      (steps.foldl Traffic.step traffic).outcome? traffic.calls.length =
        (link.call world method body outside).2.2 := by
  let place := traffic.calls.length
  let drawn := traffic.draw method body
  have drawnAt := getElem?_drawn traffic method body
  simp only [Link.call, same, Client.draw, toNat_nextSeq sound few]
  cases registered : Client.register? { traffic.client with nextSeq := traffic.client.nextSeq + 1 }
      traffic.client.nextSeq traffic.calls.length with
  | none =>
    have stepped : [Event.draw method body, .register place].foldl Traffic.step traffic = _ :=
      (step_register drawnAt).trans (register_refused rfl registered)
    refine ⟨_, congrArg Traffic.client stepped, ?_⟩
    rw [stepped, outcome?_of_found (getElem?_moved drawnAt _ _ _)]
    rfl
  | some client =>
    have stepped := (step_register drawnAt).trans (register_accepted rfl registered)
    have registeredAt := getElem?_moved drawnAt client
      ⟨traffic.client.nextSeq, method, body, .registered, drawn.arrived.length, none⟩ drawn.written
    cases framed : Frame.write RequestFrame.form ⟨traffic.client.nextSeq, method, body⟩ with
    | error error =>
      have broken := (step_write registeredAt none).trans (write_error rfl framed)
      have brokenAt := getElem?_moved registeredAt client
        ⟨traffic.client.nextSeq, method, body, .broken error, drawn.arrived.length, none⟩
        drawn.written
      have removed := step_forget brokenAt
      have failed := (congrArg (Traffic.step · (.forget place)) broken).trans removed
      have ran : [Event.draw method body, .register place, .write place none, .forget place].foldl
          Traffic.step traffic = _ :=
        (congrArg (fun after : Traffic => (after.step (.write place none)).step (.forget place))
          stepped).trans failed
      refine ⟨_, congrArg Traffic.client ran, ?_⟩
      rw [ran]
      exact outcome?_of_found (getElem?_moved brokenAt _ _ _)
    | ok bytes =>
      have sent := (step_write registeredAt none).trans (write_ok rfl framed)
      have sentAt := getElem?_moved registeredAt client
        ⟨traffic.client.nextSeq, method, body, .sent, drawn.arrived.length, none⟩
        (drawn.written ++ bytes)
      have first : client.waiting.lookup traffic.client.nextSeq = some place := by
        rw [(Client.register?_some registered).2]
        exact List.lookup_cons_self
      obtain ⟨events, clientAfter, outcome⟩ := Waiting.receiveReply ⟨sentAt, rfl, rfl, first⟩
        (Link.serveRequest world link.server bytes link.state outside).2.2
      refine ⟨[.draw method body, .register place, .write place none] ++ events, ?_⟩
      have ran : [Event.draw method body, .register place, .write place none].foldl Traffic.step
          traffic = _ :=
        (congrArg (Traffic.step · (.write place none)) stepped).trans sent
      rw [List.foldl_append, ran]
      exact ⟨clientAfter, outcome⟩

/-- A call on a link is a run of its client's traffic: the client is the same behind it, and the
call comes to what the caller learns. -/
theorem exists_run_call {σ τ : Type} (world : World τ) (events : List Event)
    (few : (run events).calls.length + 1 < 2 ^ 64) (link : Link σ)
    (same : link.client = (run events).client) (method : String) (body : Bytes) (outside : τ) :
    ∃ steps : List Event,
      (run (events ++ steps)).client = (link.call world method body outside).1.client ∧
      (run (events ++ steps)).outcome? (run events).calls.length =
        (link.call world method body outside).2.2 := by
  have sound := sound_run events (Nat.lt_of_succ_lt few)
  obtain ⟨steps, client, outcome⟩ := sound.exists_call world few link same method body outside
  refine ⟨steps, ?_⟩
  rw [run_append]
  exact ⟨client, outcome⟩

end Traffic

end PluginBridge
