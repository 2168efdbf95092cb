import PluginBridge.Transport.Client

/-! The channels of a client: which ones it has after a step, and that steps under different numbers
do not depend on each other. -/

namespace PluginBridge

namespace Client

variable {client next : Client} {seq other gone : UInt64} {channel : Nat}

theorem mem_forget : (other, channel) ∈ (client.forget seq).waiting ↔
    (other, channel) ∈ client.waiting ∧ other ≠ seq := by
  simp only [forget, List.mem_filter, bne_iff_ne]

theorem register?_some (registered : client.register? seq channel = some next) :
    client.closed = false ∧
      next = { client with waiting := (seq, channel) :: (client.forget seq).waiting } := by
  rw [register?] at registered
  split at registered
  · cases registered
  · rename_i open_
    exact ⟨Bool.eq_false_iff.mpr open_, (Option.some.inj registered).symm⟩

theorem register?_none (refused : client.register? seq channel = none) : client.closed = true := by
  rw [register?] at refused
  split at refused
  · assumption
  · cases refused

theorem receive?_none (unmatched : client.receive? seq = none) :
    (seq, channel) ∉ client.waiting := by
  rw [receive?, Option.map_eq_none_iff, List.lookup_eq_none_iff] at unmatched
  intro member
  exact absurd (unmatched _ member) (by simp)

theorem receive?_some (matched : client.receive? seq = some (next, channel)) :
    (seq, channel) ∈ client.waiting ∧ next = client.forget seq := by
  rw [receive?, Option.map_eq_some_iff] at matched
  obtain ⟨found, looked, pair⟩ := matched
  cases pair
  obtain ⟨before, after, split, _⟩ := List.lookup_eq_some_iff.mp looked
  rw [split]
  exact ⟨List.mem_append_right _ List.mem_cons_self, rfl⟩

/-! ## Channels under different numbers -/

theorem forget_comm (client : Client) (first second : UInt64) :
    (client.forget first).forget second = (client.forget second).forget first := by
  simp only [forget, List.filter_filter, Bool.and_comm]

theorem forget_forget (client : Client) (seq : UInt64) :
    (client.forget seq).forget seq = client.forget seq := by
  simp only [forget, List.filter_filter, Bool.and_self]

theorem forget_of_not_mem (absent : ∀ channel, (seq, channel) ∉ client.waiting) :
    client.forget seq = client := by
  have whole : client.waiting.filter (·.1 != seq) = client.waiting := by
    rw [List.filter_eq_self]
    intro entry member
    rw [bne_iff_ne]
    rintro rfl
    exact absent entry.2 member
  rw [forget, whole]

theorem forget_cons (client : Client) (seq : UInt64) (channel : Nat) :
    Client.forget { client with waiting := (seq, channel) :: (client.forget seq).waiting } seq =
      client.forget seq := by
  have dropped : ¬ ((seq, channel).1 != seq) = true := by
    rw [bne_self_eq_false]
    exact Bool.false_ne_true
  refine Eq.trans ?_ (forget_forget client seq)
  rw [forget, List.filter_cons, if_neg dropped]
  rfl

theorem register?_forget (different : seq ≠ gone) :
    (client.forget gone).register? seq channel =
      (client.register? seq channel).map (·.forget gone) := by
  have kept : ((seq, channel).1 != gone) = true := bne_iff_ne.mpr different
  have same : (client.forget gone).closed = client.closed := rfl
  rw [register?, register?, same, forget_comm]
  by_cases closed : client.closed = true
  · rw [if_pos closed, if_pos closed]
    rfl
  · rw [if_neg closed, if_neg closed, Option.map_some]
    simp only [forget, List.filter_cons, kept, if_true]

theorem lookup_forget (different : seq ≠ gone) :
    (client.forget gone).waiting.lookup seq = client.waiting.lookup seq := by
  rw [forget]
  dsimp only
  induction client.waiting with
  | nil => rfl
  | cons entry rest ih =>
    obtain ⟨number, channel⟩ := entry
    by_cases same : number = gone
    · have dropped : ¬ ((number, channel).1 != gone) = true := by
        rw [same, bne_self_eq_false]
        exact Bool.false_ne_true
      have foreign : (seq == number) = false := beq_false_of_ne (same ▸ different)
      rw [List.filter_cons, if_neg dropped, ih, List.lookup_cons, foreign]
    · rw [List.filter_cons, if_pos (bne_iff_ne.mpr same), List.lookup_cons, List.lookup_cons, ih]

theorem receive?_forget (different : seq ≠ gone) :
    (client.forget gone).receive? seq =
      (client.receive? seq).map fun (next, channel) => (next.forget gone, channel) := by
  rw [receive?, receive?, lookup_forget different, Option.map_map, forget_comm]
  rfl

theorem receive?_forget_self (client : Client) (seq : UInt64) :
    (client.forget seq).receive? seq = none := by
  rw [receive?, Option.map_eq_none_iff, List.lookup_eq_none_iff]
  intro entry member
  have kept : (entry.1, entry.2) ∈ (client.forget seq).waiting := member
  exact bne_iff_ne.mpr (Ne.symm (mem_forget.mp kept).2)

theorem receive?_forget_none (unmatched : client.receive? seq = none) :
    (client.forget gone).receive? seq = none := by
  by_cases same : seq = gone
  · rw [same]
    exact receive?_forget_self client gone
  · rw [receive?_forget same, unmatched]
    rfl

end Client

end PluginBridge
