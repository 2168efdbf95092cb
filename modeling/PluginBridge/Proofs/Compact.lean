import PluginBridge.Compact
import PluginBridge.Proofs.Reading
import Mathlib.Algebra.Group.Nat.Defs

/-! The compact encoding read back, form by form. A length is written in as many groups as it needs
and read back up to 64 bits, so every form that holds a length asks that it fits a machine word. -/

namespace PluginBridge.Compact

theorem length_varintGroups_pos (fuel n : Nat) (enough : 0 < fuel) :
    0 < (varintGroups fuel n).length := by
  cases fuel with
  | zero => omega
  | succ fuel =>
    unfold varintGroups
    split <;> simp

theorem length_varint_pos (n : Nat) : 0 < (varint n).length :=
  length_varintGroups_pos (n + 1) n (by omega)

theorem varint_of_lt (n : Nat) (small : n < 128) : varint n = [UInt8.ofNat n] := by
  rw [varint, varintGroups, if_pos small]

/-- The groups of a number are read back if the reader accepts as many as there are. -/
theorem reads_varintGroups (groups fuel n : Nat) (bound : n < 128 ^ (groups + 1)) (enough : n < fuel) :
    (readGroups (groups + 1)).Reads (varintGroups fuel n) n := by
  induction fuel generalizing groups n with
  | zero => omega
  | succ fuel ih =>
    by_cases small : n < 128
    · have byte : (UInt8.ofNat n).toNat = n := by
        rw [UInt8.toNat_ofNat']
        omega
      rw [varintGroups, if_pos small, readGroups]
      apply (Reader.reads_byte _ _).bind_pure
      rw [byte, if_pos small]
    · have byte : (UInt8.ofNat (n % 128 + 128)).toNat = n % 128 + 128 := by
        rw [UInt8.toNat_ofNat']
        omega
      obtain ⟨fewer, rfl⟩ : ∃ fewer, groups = fewer + 1 := by
        refine ⟨groups - 1, ?_⟩
        rcases groups with _ | groups
        · simp at bound
          omega
        · omega
      have rest : n / 128 < 128 ^ (fewer + 1) := by
        rw [Nat.div_lt_iff_lt_mul (by decide)]
        simpa only [Nat.pow_succ] using bound
      have later := ih fewer (n / 128) rest (by omega)
      rw [varintGroups, if_neg small, readGroups]
      apply Reader.reads_cons
      rw [byte, if_neg (by omega)]
      apply later.bind_pure
      congr 1
      omega

theorem reads_varint (bits n : Nat) (wide : 0 < bits) (bound : n < 1 <<< bits) :
    (readVarint bits).Reads (varint n) n := by
  have groups : (bits + 6) / 7 = ((bits + 6) / 7 - 1) + 1 := by omega
  have fits : n < 128 ^ ((bits + 6) / 7 - 1 + 1) := by
    rw [← groups]
    calc
      n < 2 ^ bits := by simpa only [Nat.one_shiftLeft] using bound
      _ ≤ 2 ^ (7 * ((bits + 6) / 7)) := Nat.pow_le_pow_right (by decide) (by omega)
      _ = 128 ^ ((bits + 6) / 7) := by rw [Nat.pow_mul]
  unfold readVarint
  rw [groups]
  apply (reads_varintGroups _ _ n fits (Nat.lt_succ_self n)).bind_pure
  rw [if_pos bound]

/-- The position of an alternative. -/
theorem reads_position (n : Nat) (bound : n < 1 <<< 32) : (readVarint 32).Reads (varint n) n :=
  reads_varint 32 n (by decide) bound

namespace Form

variable {α β : Type}

/-- The form reads back what it writes of the item. -/
def RoundTrips (form : Form α) (a : α) : Prop :=
  form.read.Reads (form.write a) a

theorem RoundTrips.decode {form : Form α} {a : α} (trip : form.RoundTrips a) (rest : Bytes) :
    form.decode (form.write a ++ rest) = .ok a :=
  Reader.Reads.front trip rest

theorem RoundTrips.decode_self {form : Form α} {a : α} (trip : form.RoundTrips a) :
    form.decode (form.write a) = .ok a := by
  simpa only [List.append_nil] using trip.decode []

theorem roundTrips_as {form : Form β} {into : α → β} {from? : β → α} {a : α}
    (trip : form.RoundTrips (into a)) (back : from? (into a) = a) :
    (form.as into from?).RoundTrips a :=
  Reader.Reads.bind_pure trip (by rw [back])

theorem roundTrips_nothing : nothing.RoundTrips () :=
  Reader.reads_pure ()

theorem roundTrips_pair {first : Form α} {second : Form β} {both : α × β}
    (left : first.RoundTrips both.1) (right : second.RoundTrips both.2) :
    (first.pair second).RoundTrips both :=
  Reader.Reads.bind left (Reader.Reads.bind_pure right rfl)

theorem roundTrips_size (n : Nat) (fits : n < 2 ^ 64) : size.RoundTrips n :=
  reads_varint 64 n (by decide) fits

theorem roundTrips_word32 (n : UInt32) : word32.RoundTrips n := by
  apply (reads_varint 32 n.toNat (by decide) n.toNat_lt).bind_pure
  rw [UInt32.ofNat_toNat]

theorem roundTrips_word64 (n : UInt64) : word64.RoundTrips n := by
  apply (reads_varint 64 n.toNat (by decide) n.toNat_lt).bind_pure
  rw [UInt64.ofNat_toNat]

theorem roundTrips_bool (truth : Bool) : bool.RoundTrips truth := by
  cases truth <;> exact fun _ => rfl

theorem roundTrips_number (x : Binary64) : number.RoundTrips x := by
  have width : (Bytes.littleEndian 8 x.bits.toNat).length = 8 := Bytes.length_littleEndian 8 _
  have taken := Reader.reads_take Error.endOfBuffer (Bytes.littleEndian 8 x.bits.toNat)
  rw [width] at taken
  apply taken.bind_pure
  rw [Bytes.ofLittleEndian_littleEndian 8 _ x.bits.toNat_lt, UInt64.ofNat_toNat]

theorem roundTrips_bytes (content : Bytes) (fits : content.length < 2 ^ 64) :
    bytes.RoundTrips content :=
  Reader.Reads.bind (roundTrips_size _ fits) (Reader.reads_take _ content)

theorem roundTrips_text (content : String) (fits : (Text.utf8 content).length < 2 ^ 64) :
    text.RoundTrips content := by
  apply Reader.Reads.bind_pure (roundTrips_bytes _ fits)
  rw [Text.ofUtf8?_utf8]

theorem roundTrips_none (form : Form α) : form.option.RoundTrips none :=
  fun _ => rfl

theorem roundTrips_some {form : Form α} {a : α} (trip : form.RoundTrips a) :
    form.option.RoundTrips (some a) := by
  apply Reader.reads_cons
  exact Reader.Reads.bind_pure trip rfl

theorem roundTrips_option {form : Form α} {a? : Option α} (trip : ∀ a ∈ a?, form.RoundTrips a) :
    form.option.RoundTrips a? := by
  cases a? with
  | none => exact roundTrips_none form
  | some a => exact roundTrips_some (trip a rfl)

theorem roundTrips_list {form : Form α} {items : List α} (fits : items.length < 2 ^ 64)
    (each : ∀ item ∈ items, form.RoundTrips item) : form.list.RoundTrips items :=
  Reader.Reads.bind (roundTrips_size _ fits) (Reader.readsEach_flatMap form.write each).exactly

theorem roundTrips_choice [BEq α] [LawfulBEq α] {alternatives : List α} {a : α}
    (few : alternatives.length < 1 <<< 32) (listed : a ∈ alternatives) :
    (choice alternatives).RoundTrips a := by
  have position := List.idxOf_lt_length_of_mem listed
  apply (reads_position (alternatives.idxOf a) (by omega)).bind_pure
  have found : alternatives[alternatives.idxOf a]? = some a := by
    rw [List.getElem?_eq_getElem position, List.getElem_idxOf position]
  rw [found]

end Form

end PluginBridge.Compact
