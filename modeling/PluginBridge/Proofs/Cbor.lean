import Mathlib.Algebra.Group.Nat.Defs
import Mathlib.Tactic.SplitIfs
import PluginBridge.Cbor
import PluginBridge.Proofs.Reading

/-! Headers, texts, numbers and containers of the self-describing encoding, read back. A header is
written in as few bytes as possible, so its argument has to fit a machine word. A container is read
up to its first item that cannot be read. -/

namespace PluginBridge.Cbor

open Reader

theorem length_bigEndian (count n : Nat) : (Bytes.bigEndian count n).length = count := by
  rw [Bytes.bigEndian, List.length_reverse, Bytes.length_littleEndian]

theorem ofBigEndian_bigEndian (count n : Nat) (fits : n < Nat.pow 256 count) :
    Bytes.ofBigEndian (Bytes.bigEndian count n) = n := by
  rw [Bytes.ofBigEndian, Bytes.bigEndian, List.reverse_reverse,
    Bytes.ofLittleEndian_littleEndian count n fits]

theorem reads_bigEndian (count n : Nat) (fits : n < Nat.pow 256 count) :
    ((some ∘ Bytes.ofBigEndian) <$> Reader.take Error.endOfInput count).Reads
      (Bytes.bigEndian count n) (some n) := by
  have taken := reads_take Error.endOfInput (Bytes.bigEndian count n)
  rw [length_bigEndian] at taken
  simpa only [Function.comp, ofBigEndian_bigEndian count n fits] using
    taken.map (some ∘ Bytes.ofBigEndian)

/-! ## Headers -/

/-- An initial byte and an argument as headers are written make the header they stand for. -/
theorem reads_initial (major low : Nat) (argument : Bytes) (n : Nat) (found : Header)
    (kind : major < 8) (small : low < 32) (reads : (readArgument low).Reads argument (some n))
    (means : headerOf? major low (some n) = some found) :
    readHeader.Reads (UInt8.ofNat (major * 32 + low) :: argument) found := by
  have initial : (UInt8.ofNat (major * 32 + low)).toNat = major * 32 + low := by
    rw [UInt8.toNat_ofNat']
    omega
  have low' : (major * 32 + low) % 32 = low := by omega
  have major' : (major * 32 + low) / 32 = major := by omega
  apply reads_cons
  rw [initial, low', major']
  apply reads.bind_pure
  rw [means]

theorem reads_argument_of_lt (n : Nat) (tiny : n < 24) : (readArgument n).Reads [] (some n) := by
  unfold readArgument
  rw [if_pos tiny]
  exact reads_pure (some n)

/-- Headers of the kinds whose meaning is their argument alone. -/
theorem reads_header (major n : Nat) (found : Header) (kind : major < 8) (fits : n < 2 ^ 64)
    (means : ∀ low, headerOf? major low (some n) = some found) :
    readHeader.Reads (header major n) found := by
  unfold header
  split_ifs with tiny one two four
  · exact reads_initial major n [] n found kind (by omega) (reads_argument_of_lt n tiny) (means n)
  · exact reads_initial major 24 _ n found kind (by decide) (reads_bigEndian 1 n one) (means 24)
  · exact reads_initial major 25 _ n found kind (by decide) (reads_bigEndian 2 n two) (means 25)
  · exact reads_initial major 26 _ n found kind (by decide) (reads_bigEndian 4 n four) (means 26)
  · exact reads_initial major 27 _ n found kind (by decide) (reads_bigEndian 8 n fits) (means 27)

/-- A header that is no tag is the next that is no tag. -/
theorem reads_untagged {bytes : Bytes} {found : Header} (reads : readHeader.Reads bytes found)
    (untagged : ∀ n, found ≠ .tag n) : readUntagged.Reads bytes found := by
  intro rest
  have pass : (skipTags ((bytes ++ rest).length + 1)).Reads bytes found := by
    apply reads.bind_pure
    cases found <;> first | rfl | exact absurd rfl (untagged _)
  exact pass rest

theorem reads_header_map (count : Nat) (fits : count < 2 ^ 64) :
    readUntagged.Reads (mapHeader count) (.map (some count)) :=
  reads_untagged (reads_header 5 count _ (by decide) fits fun _ => rfl) (by simp)

theorem reads_header_array (count : Nat) (fits : count < 2 ^ 64) :
    readUntagged.Reads (arrayHeader count) (.array (some count)) :=
  reads_untagged (reads_header 4 count _ (by decide) fits fun _ => rfl) (by simp)

theorem reads_header_text (length : Nat) (fits : length < 2 ^ 64) :
    readUntagged.Reads (header 3 length) (.text (some length)) :=
  reads_untagged (reads_header 3 length _ (by decide) fits fun _ => rfl) (by simp)

theorem reads_openMap (count : Nat) (fits : count < 2 ^ 64) :
    openMap.Reads (mapHeader count) (some count) :=
  (reads_header_map count fits).bind_pure rfl

theorem reads_openArray (count : Nat) (fits : count < 2 ^ 64) :
    openArray.Reads (arrayHeader count) (some (some count)) :=
  (reads_header_array count fits).bind_pure rfl

/-! ## Leaves -/

theorem reads_writeText (text : String) (fits : (writeText text).length < 2 ^ 64) :
    readText.Reads (writeText text) text := by
  simp only [writeText, List.length_append] at fits
  apply (reads_header_text _ (by omega)).bind
  intro rest
  simp only [readTextContent, readTextSegment, List.length_append]
  rw [if_neg (by omega), List.take_left, List.drop_left, Text.ofUtf8?_utf8]

/-- The name of a field or an alternative is read as its bytes. -/
theorem reads_name (name : String) (short : (Text.utf8 name).length ≤ blockSize) :
    readName.Reads (writeText name) (Text.utf8 name) := by
  have bound : (Text.utf8 name).length < 2 ^ 64 :=
    Nat.lt_of_le_of_lt short (by decide)
  apply (reads_header_text _ bound).bind
  dsimp only
  rw [if_neg (by omega)]
  apply (reads_take _ _).bind_pure
  rw [Text.ofUtf8?_utf8]
  rfl

theorem reads_writeBool (truth : Bool) : readBool.Reads (writeBool truth) truth := by
  cases truth <;> exact fun _ => rfl

theorem reads_header_half {x : Binary64} {half : UInt16} (narrow : x.toHalf? = some half) :
    readHeader.Reads (0xf9 :: Bytes.bigEndian 2 half.toNat) (.float x) := by
  have means : headerOf? 7 25 (some half.toNat) = some (.float x) := by
    simp only [headerOf?, UInt16.ofNat_toNat, Binary64.ofHalf_of_toHalf? narrow]
  exact reads_initial 7 25 _ half.toNat _ (by decide) (by decide)
    (reads_bigEndian 2 half.toNat half.toNat_lt) means

theorem reads_header_single {x : Binary64} {single : UInt32} (narrow : x.toSingle? = some single) :
    readHeader.Reads (0xfa :: Bytes.bigEndian 4 single.toNat) (.float x) := by
  have means : headerOf? 7 26 (some single.toNat) = some (.float x) := by
    simp only [headerOf?, UInt32.ofNat_toNat, Binary64.ofSingle_of_toSingle? narrow]
  exact reads_initial 7 26 _ single.toNat _ (by decide) (by decide)
    (reads_bigEndian 4 single.toNat single.toNat_lt) means

theorem reads_header_double (x : Binary64) :
    readHeader.Reads (0xfb :: Bytes.bigEndian 8 x.bits.toNat) (.float x) := by
  have means : headerOf? 7 27 (some x.bits.toNat) = some (.float x) := by
    simp only [headerOf?, UInt64.ofNat_toNat]
  exact reads_initial 7 27 _ x.bits.toNat _ (by decide) (by decide)
    (reads_bigEndian 8 x.bits.toNat x.bits.toNat_lt) means

/-- A number is written in the narrowest format that keeps its bits, so its bits are read back. -/
theorem reads_writeNumber (x : Binary64) : readNumber.Reads (writeNumber x) x := by
  have header : readHeader.Reads (writeNumber x) (.float x) := by
    unfold writeNumber
    cases half : x.toHalf? with
    | some narrow => exact reads_header_half half
    | none =>
      cases single : x.toSingle? with
      | some narrow => exact reads_header_single single
      | none => exact reads_header_double x
  exact (reads_untagged header (by simp)).bind_pure rfl

theorem reads_writeNat (n limit : Nat) (fits : n < 2 ^ 64) (allowed : n ≤ limit) :
    (readNat limit).Reads (writeNat n) n := by
  have header := reads_header 0 n (.positive n) (by decide) fits fun _ => rfl
  have integer : Reads (fun bytes => readIntegerWithin (bytes.length + 1) bytes) (writeNat n)
      (false, n) := by
    intro rest
    have pass : (readIntegerWithin ((writeNat n ++ rest).length + 1)).Reads (writeNat n)
        (false, n) := header.bind_pure rfl
    exact pass rest
  apply integer.bind_pure
  simp [Nat.not_lt.mpr allowed]

/-! ## Containers -/

/-- The steps of a container with announced count: each reads the next bytes and changes the state,
if its condition holds, and the first whose condition does not hold fails. -/
inductive Folds {σ : Type} (step : σ → Reader Error σ) (error : Error) :
    Nat → σ → Bytes → σ → Prop → Prop where
  | stop (state : σ) : Folds step error 0 state [] state True
  | next {count : Nat} {state middle final : σ} {bytes more : Bytes} {here there : Prop}
      (first : (step state).ReadsIff bytes middle error here)
      (later : Folds step error count middle more final there) :
      Folds step error (count + 1) state (bytes ++ more) final (here ∧ there)

section Folds

variable {σ : Type} {step : σ → Reader Error σ} {error : Error} {count : Nat} {state final : σ}
  {bytes : Bytes} {fine : Prop}

theorem Folds.congr {other : Prop} (folds : Folds step error count state bytes final fine)
    (same : other ↔ fine) : Folds step error count state bytes final other :=
  propext same ▸ folds

theorem Folds.foldItems (folds : Folds step error count state bytes final fine) (fuel : Nat)
    (enough : count < fuel) :
    (foldItems step fuel (some count) state).ReadsIff bytes final error fine := by
  induction folds generalizing fuel with
  | stop state =>
    obtain ⟨fewer, rfl⟩ : ∃ fewer, fuel = fewer + 1 := ⟨fuel - 1, by omega⟩
    exact (reads_pure state).always trivial
  | next first _ ih =>
    obtain ⟨fewer, rfl⟩ : ∃ fewer, fuel = fewer + 1 := ⟨fuel - 1, by omega⟩
    exact first.bind (ih fewer (by omega))

theorem Folds.forItems (folds : Folds step error count state bytes final fine)
    (atMost : count ≤ bytes.length) :
    (forItems (some count) state step).ReadsIff bytes final error fine := by
  have pass (rest : Bytes) := folds.foldItems ((bytes ++ rest).length + 1) (by
    rw [List.length_append]
    omega)
  exact ⟨fun holds rest => (pass rest).reads holds rest,
    fun bad rest => (pass rest).fails bad rest⟩

end Folds

/-- Collecting puts the items found in front of those already seen. -/
theorem folds_each {α : Type} {item : Reader Error α} {error : Error} {items : List α}
    {bytes : Bytes} {fine : Prop} (each : ReadsEachIff item error items bytes fine)
    (seen : List α) :
    Folds (fun items => do let a ← item; pure (a :: items)) error items.length seen bytes
      (items.reverse ++ seen) fine := by
  induction each generalizing seen with
  | nil => exact .stop seen
  | @cons a rest _ _ _ _ first _ ih =>
    have later := ih (a :: seen)
    rw [List.reverse_cons, List.append_assoc, List.singleton_append]
    exact .next (first.bind_pure rfl) later

theorem readsIff_collect {α : Type} {item : Reader Error α} {error : Error} {items : List α}
    {bytes : Bytes} {fine : Prop} (each : ReadsEachIff item error items bytes fine)
    (atMost : items.length ≤ bytes.length) :
    (collect (some items.length) item).ReadsIff bytes items error fine := by
  have folded := (folds_each each []).forItems atMost
  apply folded.bind_pure
  rw [List.append_nil, List.reverse_reverse]

end PluginBridge.Cbor
