import PluginBridge.Proofs.Numbering
import PluginBridge.Proofs.Traffic

/-! What every event keeps: the numbers of the calls, the channels of those that wait, and that none
of them has missed a reply. -/

namespace PluginBridge

namespace Traffic

variable {traffic : Traffic} {channel other : Nat} {call : Call}

def Stage.isOpen : Stage → Bool
  | .registered | .sent | .broken _ => true
  | .drawn | .refused | .failed _ => false

def Stage.isRegistered : Stage → Bool
  | .drawn | .refused => false
  | .registered | .sent | .broken _ | .failed _ => true

theorem Stage.registered_of_open {stage : Stage} (open_ : stage.isOpen = true) :
    stage.isRegistered = true := by
  cases stage <;> first | rfl | cases open_

/-- A call that waits has missed no reply, and a reply that it holds is the first one with its
number since it was registered. -/
structure Call.Sound (arrived : List ResponseFrame) (closed : Bool) (waits : Prop) (call : Call) :
    Prop where
  early : call.since ≤ arrived.length
  waiting : waits → call.stage.isOpen = true ∧ call.held = none ∧
    ∀ frame ∈ arrived.drop call.since, frame.seq ≠ call.seq
  kept : closed = false → call.stage.isOpen = true → call.held = none → waits
  holds : ∀ {place frame}, call.held = some (place, frame) → call.stage.isRegistered = true ∧
    call.since ≤ place ∧ arrived[place]? = some frame ∧ frame.seq = call.seq ∧
    ∀ other ∈ (arrived.take place).drop call.since, other.seq ≠ call.seq

structure Sound (traffic : Traffic) : Prop where
  next : traffic.client.nextSeq = UInt64.ofNat (traffic.calls.length + 1)
  number : ∀ {channel} {call : Call}, traffic.calls[channel]? = some call →
    call.seq = UInt64.ofNat (channel + 1)
  entry : ∀ {seq channel}, (seq, channel) ∈ traffic.client.waiting →
    ∃ call, traffic.calls[channel]? = some call ∧ call.seq = seq
  shut : traffic.client.closed = true → traffic.client.waiting = []
  call : ∀ {channel} {call : Call}, traffic.calls[channel]? = some call →
    call.Sound traffic.arrived traffic.client.closed
      ((call.seq, channel) ∈ traffic.client.waiting)

theorem Sound.channel_eq (sound : Sound traffic) (few : traffic.calls.length < 2 ^ 64)
    {first second : Call} (firstAt : traffic.calls[channel]? = some first)
    (secondAt : traffic.calls[other]? = some second) (same : first.seq = second.seq) :
    channel = other := by
  obtain ⟨firstIn, _⟩ := List.getElem?_eq_some_iff.mp firstAt
  obtain ⟨secondIn, _⟩ := List.getElem?_eq_some_iff.mp secondAt
  rw [sound.number firstAt, sound.number secondAt] at same
  have places := Numbering.ofNat_injective (by omega) (by omega) same
  omega

/-- Whose number a channel is registered under. -/
theorem Sound.entry_eq (sound : Sound traffic) (few : traffic.calls.length < 2 ^ 64)
    (found : traffic.calls[channel]? = some call)
    (member : (call.seq, other) ∈ traffic.client.waiting) : other = channel := by
  obtain ⟨owner, ownerAt, same⟩ := sound.entry member
  exact sound.channel_eq few ownerAt found same

/-! ## Steps -/

theorem Sound.draw (sound : Sound traffic) (method : String) (body : Bytes) :
    Sound (traffic.draw method body) := by
  constructor
  · simp only [Traffic.draw, Client.draw, sound.next, List.length_append, List.length_singleton]
    exact Numbering.next_ofNat (traffic.calls.length + 1)
  · intro channel call found
    rcases getElem?_draw found with before | ⟨rfl, rfl⟩
    · exact sound.number before
    · exact sound.next
  · intro seq channel member
    obtain ⟨call, found, same⟩ := sound.entry member
    exact ⟨call, getElem?_draw_of_found found method body, same⟩
  · exact sound.shut
  · intro channel call found
    rcases getElem?_draw found with before | ⟨rfl, rfl⟩
    · exact sound.call before
    · constructor
      · exact Nat.zero_le _
      · intro member
        obtain ⟨owner, ownerAt, _⟩ := sound.entry member
        exact absurd (List.getElem?_eq_some_iff.mp ownerAt).1 (Nat.lt_irrefl _)
      · intro _ open_
        cases open_
      · intro place frame held
        cases held

/-- A step of one call changes that call and the channels under its number, and nothing that the
other calls depend on. -/
theorem Sound.update (sound : Sound traffic) (few : traffic.calls.length < 2 ^ 64)
    (found : traffic.calls[channel]? = some call) (client : Client) {next : Call}
    {arrived : List ResponseFrame}
    (changed : next.Sound arrived client.closed ((call.seq, channel) ∈ client.waiting))
    (unchanged : ∀ {other} {owner : Call}, owner.seq ≠ call.seq →
      traffic.calls[other]? = some owner →
      owner.Sound arrived traffic.client.closed ((owner.seq, other) ∈ traffic.client.waiting))
    (written : Bytes) (numbered : next.seq = call.seq)
    (drawn : client.nextSeq = traffic.client.nextSeq)
    (closed : client.closed = traffic.client.closed)
    (shut : client.closed = true → client.waiting = [])
    (others : ∀ {seq other}, seq ≠ call.seq →
      ((seq, other) ∈ client.waiting ↔ (seq, other) ∈ traffic.client.waiting))
    (own : ∀ {other}, (call.seq, other) ∈ client.waiting → other = channel) :
    Sound
      { client := client, calls := traffic.calls.set channel next, arrived := arrived,
        written := written } := by
  constructor
  · rw [List.length_set, drawn]
    exact sound.next
  · intro other owner ownerAt
    rcases getElem?_put ownerAt with ⟨rfl, rfl⟩ | ⟨_, before⟩
    · exact numbered.trans (sound.number found)
    · exact sound.number before
  · intro seq other member
    by_cases same : seq = call.seq
    · rw [same] at member
      rw [own member, same]
      exact ⟨next, List.getElem?_set_self (List.getElem?_eq_some_iff.mp found).1, numbered⟩
    · obtain ⟨owner, ownerAt, rfl⟩ := sound.entry ((others same).mp member)
      refine ⟨owner, (List.getElem?_set_ne ?_).trans ownerAt, rfl⟩
      rintro rfl
      exact same (congrArg Call.seq (Option.some.inj (ownerAt.symm.trans found)))
  · exact shut
  · intro other owner ownerAt
    rcases getElem?_put ownerAt with ⟨rfl, rfl⟩ | ⟨different, before⟩
    · rw [numbered]
      exact changed
    · have foreign : owner.seq ≠ call.seq := fun same =>
        different (sound.channel_eq few before found same)
      have kept := unchanged foreign before
      rw [← closed, ← others foreign] at kept
      exact kept

theorem Call.Sound.advance {arrived : List ResponseFrame} {closed : Bool} {waits : Prop}
    (sound : call.Sound arrived closed waits) {stage : Stage}
    (opened : stage.isOpen = call.stage.isOpen)
    (registered : call.stage.isRegistered = true → stage.isRegistered = true) :
    Call.Sound arrived closed waits { call with stage := stage } := by
  constructor
  · exact sound.early
  · intro waiting
    rw [opened]
    exact sound.waiting waiting
  · intro open_ going
    rw [opened] at going
    exact sound.kept open_ going
  · intro place frame held
    obtain ⟨begun, first⟩ := sound.holds held
    exact ⟨registered begun, first⟩

/-- A step that only changes how far a call has come. -/
theorem Sound.advance (sound : Sound traffic) (few : traffic.calls.length < 2 ^ 64)
    (found : traffic.calls[channel]? = some call) {stage : Stage}
    (opened : stage.isOpen = call.stage.isOpen)
    (registered : call.stage.isRegistered = true → stage.isRegistered = true) (written : Bytes) :
    Sound (traffic.moved channel traffic.client { call with stage := stage } written) :=
  sound.update few found traffic.client ((sound.call found).advance opened registered)
    (fun _ => sound.call) written rfl rfl rfl sound.shut (fun _ => Iff.rfl)
    (sound.entry_eq few found)

theorem Sound.move (sound : Sound traffic) (few : traffic.calls.length < 2 ^ 64)
    (found : traffic.calls[channel]? = some call) {client : Client} {next : Call} {written : Bytes}
    (move : Move traffic channel call client next written) :
    Sound (traffic.moved channel client next written) := by
  have own := sound.call found
  cases move with
  | refuse drawn closed =>
    exact sound.advance few found (by rw [drawn]; rfl) (by rw [drawn]; nofun) _
  | register drawn open_ =>
    have unheld : call.held = none := by
      cases held : call.held with
      | none => rfl
      | some pair =>
        have begun := (own.holds held).1
        rw [drawn] at begun
        cases begun
    have changed : Call.Sound traffic.arrived traffic.client.closed
        ((call.seq, channel) ∈ (call.seq, channel) :: (traffic.client.forget call.seq).waiting)
        { call with stage := .registered, since := traffic.arrived.length } := by
      constructor
      · exact Nat.le_refl _
      · intro _
        refine ⟨rfl, unheld, ?_⟩
        intro frame member
        rw [List.drop_length] at member
        cases member
      · intro _ _ _
        exact List.mem_cons_self
      · intro place frame held
        cases unheld.symm.trans held
    refine sound.update few found
      { traffic.client with
        waiting := (call.seq, channel) :: (traffic.client.forget call.seq).waiting }
      changed (fun _ => sound.call) _ rfl rfl rfl ?_ ?_ ?_
    · intro closed
      cases open_.symm.trans closed
    · intro seq other different
      rw [List.mem_cons, Client.mem_forget]
      constructor
      · rintro (same | ⟨member, _⟩)
        · exact absurd (congrArg Prod.fst same) different
        · exact member
      · intro member
        exact .inr ⟨member, different⟩
    · intro other member
      rw [List.mem_cons, Client.mem_forget] at member
      rcases member with same | ⟨_, different⟩
      · exact congrArg Prod.snd same
      · exact absurd rfl different
  | send registered fits bytes =>
    exact sound.advance few found (by rw [registered]; rfl) (fun _ => rfl) _
  | fail registered error bytes large =>
    exact sound.advance few found (by rw [registered]; rfl) (fun _ => rfl) _
  | remove error broken =>
    have changed : Call.Sound traffic.arrived traffic.client.closed
        ((call.seq, channel) ∈ (traffic.client.forget call.seq).waiting)
        { call with stage := .failed error } := by
      constructor
      · exact own.early
      · intro member
        exact absurd rfl (Client.mem_forget.mp member).2
      · intro _ open_
        cases open_
      · intro place frame held
        exact ⟨rfl, (own.holds held).2⟩
    refine sound.update few found (traffic.client.forget call.seq) changed (fun _ => sound.call) _
      rfl rfl rfl ?_ ?_ ?_
    · intro closed
      rw [Client.forget, sound.shut closed]
      rfl
    · intro seq other different
      rw [Client.mem_forget]
      exact and_iff_left different
    · intro other member
      exact absurd rfl (Client.mem_forget.mp member).2

/-- A reply arrives that is not for this call, or comes too late for it. -/
theorem Call.Sound.arrive {arrived : List ResponseFrame} {closed : Bool} {waits : Prop}
    (sound : call.Sound arrived closed waits) {frame : ResponseFrame}
    (foreign : waits → frame.seq ≠ call.seq) :
    call.Sound (arrived ++ [frame]) closed waits := by
  constructor
  · rw [List.length_append]
    exact Nat.le_add_right_of_le sound.early
  · intro waiting
    obtain ⟨open_, unheld, missed⟩ := sound.waiting waiting
    refine ⟨open_, unheld, ?_⟩
    intro other member
    rw [List.drop_append_of_le_length sound.early, List.mem_append, List.mem_singleton] at member
    rcases member with before | rfl
    · exact missed other before
    · exact foreign waiting
  · exact sound.kept
  · intro place first held
    obtain ⟨begun, since, there, numbered, missed⟩ := sound.holds held
    obtain ⟨inside, _⟩ := List.getElem?_eq_some_iff.mp there
    refine ⟨begun, since, (List.getElem?_append_left inside).trans there, numbered, ?_⟩
    rw [List.take_append_of_le_length (Nat.le_of_lt inside)]
    exact missed

theorem Sound.receive (sound : Sound traffic) (few : traffic.calls.length < 2 ^ 64)
    (frame : ResponseFrame) : Sound (traffic.receive frame) := by
  rw [Traffic.receive]
  split
  · rename_i unmatched
    refine ⟨sound.next, sound.number, sound.entry, sound.shut, ?_⟩
    intro channel call found
    refine (sound.call found).arrive ?_
    intro waiting same
    rw [← same] at waiting
    exact Client.receive?_none unmatched waiting
  · rename_i client channel matched
    obtain ⟨member, rfl⟩ := Client.receive?_some matched
    obtain ⟨owner, ownerAt, numbered⟩ := sound.entry member
    rw [← numbered] at member
    obtain ⟨open_, unheld, missed⟩ := (sound.call ownerAt).waiting member
    have changed : Call.Sound (traffic.arrived ++ [frame]) traffic.client.closed
        ((owner.seq, channel) ∈ (traffic.client.forget frame.seq).waiting)
        { owner with held := some (traffic.arrived.length, frame) } := by
      have gone : (owner.seq, channel) ∉ (traffic.client.forget frame.seq).waiting := fun kept =>
        (Client.mem_forget.mp kept).2 numbered
      constructor
      · rw [List.length_append]
        exact Nat.le_add_right_of_le (sound.call ownerAt).early
      · intro kept
        exact absurd kept gone
      · intro _ _ held
        cases held
      · intro place first held
        cases held
        refine ⟨?_, (sound.call ownerAt).early, ?_, numbered.symm, ?_⟩
        · exact Stage.registered_of_open open_
        · rw [List.getElem?_append_right (Nat.le_refl _), Nat.sub_self]
          rfl
        · rw [List.take_left]
          exact missed
    have unchanged : ∀ {other} {caller : Call}, caller.seq ≠ owner.seq →
        traffic.calls[other]? = some caller → caller.Sound (traffic.arrived ++ [frame])
          traffic.client.closed ((caller.seq, other) ∈ traffic.client.waiting) := by
      intro other caller different callerAt
      refine (sound.call callerAt).arrive ?_
      intro _ same
      exact different (same.symm.trans numbered.symm)
    rw [List.modify_eq_set_getElem?, ownerAt]
    refine sound.update few ownerAt (traffic.client.forget frame.seq) changed unchanged
      traffic.written rfl rfl rfl ?_ ?_ ?_
    · intro closed
      rw [Client.forget, sound.shut closed]
      rfl
    · intro seq other different
      rw [Client.mem_forget, ← numbered]
      exact and_iff_left different
    · intro other kept
      exact absurd numbered (Client.mem_forget.mp kept).2

theorem Sound.disconnect (sound : Sound traffic) : Sound traffic.disconnect := by
  refine ⟨sound.next, sound.number, nofun, fun _ => rfl, ?_⟩
  intro channel call found
  exact ⟨(sound.call found).early, nofun, nofun, (sound.call found).holds⟩

theorem Sound.change (sound : Sound traffic) (few : traffic.calls.length < 2 ^ 64) {after : Traffic}
    (change : Change traffic after) : Sound after := by
  cases change with
  | idle => exact sound
  | draw method body => exact sound.draw method body
  | move found move => exact sound.move few found move
  | receive frame => exact sound.receive few frame
  | disconnect => exact sound.disconnect

theorem sound_run (events : List Event) (few : (run events).calls.length < 2 ^ 64) :
    Sound (run events) := by
  induction events using List.reverseRecOn with
  | nil =>
    refine ⟨rfl, nofun, nofun, nofun, nofun⟩
  | append_singleton events event ih =>
    rw [run_concat] at few ⊢
    have change := change_step (run events) event
    have fewer := Nat.lt_of_le_of_lt (length_change change) few
    exact (ih fewer).change fewer change

end Traffic

end PluginBridge
