import PluginBridge.Text.Utf8

/-! Sequences of bytes that are no text. The bytes 0x80 to 0xbf continue a character, so they stand
neither at the start of a text nor behind a character that is a single byte. -/

namespace PluginBridge.Text

/-- The byte stands inside a character, never at its start. -/
def Continues (byte : UInt8) : Prop :=
  128 ≤ byte.toNat ∧ byte.toNat < 192

instance (byte : UInt8) : Decidable (Continues byte) :=
  inferInstanceAs (Decidable (_ ∧ _))

theorem utf8_ofList (chars : List Char) :
    utf8 (String.ofList chars) = chars.flatMap String.utf8EncodeChar := by
  simp [utf8, List.utf8Encode]

theorem utf8_of_ofUtf8? {bytes : Bytes} {text : String} (found : ofUtf8? bytes = some text) :
    utf8 text = bytes := by
  unfold ofUtf8? String.fromUTF8? at found
  split at found
  next valid =>
    obtain rfl := Option.some.inj found
    simp [utf8, String.fromUTF8]
  next => simp at found

def Leads (first : UInt8) (more : Bytes) : Prop :=
  ¬ Continues first ∧ (first.toNat < 128 → more = [])

theorem leads_of_mark (bits : UInt8) {mark : UInt8} (more : Bytes) (high : 192 ≤ mark.toNat) :
    Leads (bits ||| mark) more := by
  have above : mark.toNat ≤ (bits ||| mark).toNat := by
    rw [UInt8.toNat_or]
    exact Nat.right_le_or
  exact ⟨fun inside => absurd inside.2 (by omega), fun low => by omega⟩

/-- A character begins with a byte that continues none, and is that byte alone if it is below 128. -/
theorem utf8EncodeChar_front (c : Char) :
    ∃ first more, String.utf8EncodeChar c = first :: more ∧ Leads first more := by
  rcases Char.utf8Size_eq c with one | two | three | four
  · have small : c.val.toNat ≤ 127 := UInt32.le_iff_toNat_le.mp (Char.utf8Size_eq_one_iff.mp one)
    have low : c.val.toUInt8.toNat < 128 := by
      rw [UInt32.toNat_toUInt8]
      omega
    exact ⟨_, _, String.utf8EncodeChar_eq_singleton one,
      fun inside => absurd inside.1 (Nat.not_le.mpr low), fun _ => rfl⟩
  · exact ⟨_, _, String.utf8EncodeChar_eq_cons_cons two, leads_of_mark _ _ (by decide)⟩
  · exact ⟨_, _, String.utf8EncodeChar_eq_cons_cons_cons three, leads_of_mark _ _ (by decide)⟩
  · exact ⟨_, _, String.utf8EncodeChar_eq_cons_cons_cons_cons four, leads_of_mark _ _ (by decide)⟩

/-- No character stands between single bytes and a byte that continues one. -/
theorem flatMap_ne_continues (chars : List Char) (plain : Bytes) {byte : UInt8} {more : Bytes}
    (single : ∀ b ∈ plain, b.toNat < 128) (continues : Continues byte) :
    chars.flatMap String.utf8EncodeChar ≠ plain ++ byte :: more := by
  intro same
  induction plain generalizing chars with
  | nil =>
    cases chars with
    | nil => simp at same
    | cons c rest =>
      obtain ⟨first, others, front, leads⟩ := utf8EncodeChar_front c
      rw [List.flatMap_cons, front, List.nil_append, List.cons_append] at same
      exact leads.1 ((List.cons.inj same).1 ▸ continues)
  | cons b plain ih =>
    cases chars with
    | nil => simp at same
    | cons c rest =>
      obtain ⟨first, others, front, leads⟩ := utf8EncodeChar_front c
      rw [List.flatMap_cons, front, List.cons_append, List.cons_append] at same
      obtain ⟨rfl, behind⟩ := List.cons.inj same
      rw [leads.2 (single first (List.mem_cons_self ..)), List.nil_append] at behind
      exact ih rest (fun other member => single other (List.mem_cons_of_mem _ member)) behind

theorem ofUtf8?_continues (plain : Bytes) {byte : UInt8} (more : Bytes)
    (single : ∀ b ∈ plain, b.toNat < 128) (continues : Continues byte) :
    ofUtf8? (plain ++ byte :: more) = none := by
  rw [Option.eq_none_iff_forall_not_mem]
  intro text found
  have same := utf8_of_ofUtf8? found
  rw [← String.ofList_toList (s := text), utf8_ofList] at same
  exact flatMap_ne_continues text.toList plain single continues same

end PluginBridge.Text
