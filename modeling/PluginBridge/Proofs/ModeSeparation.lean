import PluginBridge.Proofs.Codec
import PluginBridge.Proofs.Utf8

/-! Bytes of one mode in the hands of the other. The header that begins every item of the
self-describing encoding is, for the compact reader, a number above all positions of kinds, or a
length or count in the thousands; the first byte of the compact encoding is, for the
self-describing reader, a small natural number. Main statement: no reader takes the other mode's
bytes for a value, a result or a specification. -/

namespace PluginBridge

open Reader

/-! ## Headers as numbers of the compact encoding -/

namespace Compact

/-- A number of two groups. -/
theorem varint_two (low high : Nat) (small : low < 128) (positive : 0 < high) (short : high < 128) :
    varint (low + 128 * high) = [UInt8.ofNat (low + 128), UInt8.ofNat high] := by
  obtain ⟨fuel, same⟩ : ∃ fuel, low + 128 * high = fuel + 1 := ⟨low + 128 * high - 1, by omega⟩
  have first : (low + 128 * high) % 128 = low := by omega
  have second : (low + 128 * high) / 128 = high := by omega
  rw [varint, varintGroups, if_neg (by omega), first, second, same, varintGroups, if_pos short]

end Compact

namespace Cbor

theorem header_of_lt (major n : Nat) (tiny : n < 24) :
    header major n = [UInt8.ofNat (major * 32 + n)] := by
  rw [header, if_pos tiny]

/-- The headers of a map and of a short text after it are one number of the compact encoding. -/
theorem mapHeader_writeText (count : Nat) (few : count < 24) (name : String)
    (short : (Text.utf8 name).length < 24) :
    mapHeader count ++ writeText name =
      Compact.varint (count + 32 + 128 * ((Text.utf8 name).length + 96)) ++ Text.utf8 name := by
  have first : 5 * 32 + count = count + 32 + 128 := by omega
  have second : 3 * 32 + (Text.utf8 name).length = (Text.utf8 name).length + 96 := by omega
  rw [Compact.varint_two _ _ (by omega) (by omega) (by omega), mapHeader, writeText,
    header_of_lt 5 count few, header_of_lt 3 _ short, first, second]
  rfl

/-- A map of fields begins, for the compact encoding, with a number above twelve thousand. -/
theorem map_front (count : Nat) (few : count < 24) (name : String)
    (short : (Text.utf8 name).length < 24) (content more : Bytes) :
    mapHeader count ++ writeField name content ++ more =
      Compact.varint (count + 32 + 128 * ((Text.utf8 name).length + 96)) ++
        (Text.utf8 name ++ (content ++ more)) := by
  calc
    mapHeader count ++ writeField name content ++ more
      = mapHeader count ++ writeText name ++ (content ++ more) := by
        simp only [writeField, List.append_assoc]
    _ = _ := by rw [mapHeader_writeText count few name short, List.append_assoc]

/-- An array begins with a byte that stands inside characters only. -/
theorem arrayHeader_front (count : Nat) :
    ∃ byte more, arrayHeader count = byte :: more ∧ Text.Continues byte := by
  unfold arrayHeader header
  split_ifs with tiny
  · refine ⟨_, _, rfl, ?_⟩
    rw [Text.Continues, UInt8.toNat_ofNat']
    omega
  all_goals exact ⟨_, _, rfl, by decide⟩

/-- A value begins with a number that is no position of a kind. -/
theorem writeValue_front (value : Value) :
    ∃ n more, writeValue value = Compact.varint n ++ more ∧ 8 < n ∧ n < 1 <<< 32 := by
  have choice (kind : Kind) (content : Bytes) :
      ∃ n more, writeChoice kind.name content = Compact.varint n ++ more ∧
        8 < n ∧ n < 1 <<< 32 := by
    have short : (Text.utf8 kind.name).length < 24 := by cases kind <;> decide
    rw [writeChoice, mapHeader_writeText 1 (by decide) _ short, List.append_assoc]
    exact ⟨_, _, rfl, by omega, by omega⟩
  cases value with
  | null => exact ⟨100, Text.utf8 "Null", by decide, by decide, by decide⟩
  | bool truth => exact choice .bool _
  | number x => exact choice .number _
  | string text => exact choice .string _
  | list items => exact choice .list _
  | set items => exact choice .set _
  | tuple items => exact choice .tuple _
  | map members => exact choice .map _
  | object members => exact choice .object _

end Cbor

/-! ## The compact reader -/

namespace Compact

/-- No kind of value has this position. -/
theorem fails_readValue {n : Nat} (more : Bytes) (unknown : 8 < n) (word : n < 1 <<< 32) :
    readValue.Fails (varint n ++ more) .unknownVariant := by
  obtain ⟨above, rfl⟩ : ∃ above, n = above + 9 := ⟨n - 9, by omega⟩
  have stuck (depth : Nat) : (readValueWithin (depth + 1)).Fails (varint (above + 9))
      .unknownVariant := by
    unfold readValueWithin
    exact (reads_position _ word).bind_throw rfl
  intro rest
  exact (stuck _).append more rest

/-- A text with announced length. -/
theorem read_text_announced (n : Nat) (word : n < 2 ^ 64) (bytes : Bytes) :
    Form.text.read (varint n ++ bytes) =
      if bytes.length < n then .error .endOfBuffer
      else match Text.ofUtf8? (bytes.take n) with
        | some name => .ok (name, bytes.drop n)
        | none => .error .badUtf8 := by
  have count : Form.size.read (varint n ++ bytes) = .ok (n, bytes) :=
    Form.roundTrips_size n word bytes
  have content : Form.bytes.read (varint n ++ bytes) = take n bytes := by
    change (Form.size.read (varint n ++ bytes) >>= fun found => take found.1 found.2) = _
    rw [count]
    rfl
  change (Form.bytes.read (varint n ++ bytes) >>= fun found =>
    (match Text.ofUtf8? found.1 with
      | some name => (pure name : Reader Error String)
      | none => throw Error.badUtf8) found.2) = _
  rw [content, take, Reader.take]
  split
  · rfl
  · change (match Text.ofUtf8? (bytes.take n) with
      | some name => (pure name : Reader Error String)
      | none => throw Error.badUtf8) (bytes.drop n) = _
    cases Text.ofUtf8? (bytes.take n) <;> rfl

/-- A text is as long as its length says. -/
theorem length_of_read_text {n : Nat} {bytes rest : Bytes} {name : String} (word : n < 2 ^ 64)
    (found : Form.text.read (varint n ++ bytes) = .ok (name, rest)) :
    (Text.utf8 name).length = n := by
  rw [read_text_announced n word] at found
  split at found
  next => simp at found
  next enough =>
    split at found
    next text valid =>
      obtain ⟨rfl, -⟩ := Prod.mk.inj (Except.ok.inj found)
      rw [Text.utf8_of_ofUtf8? valid, List.length_take]
      omega
    next => simp at found

/-- What is announced as a text is none if a byte inside it continues no character. -/
theorem read_text_continues {n : Nat} (plain : Bytes) {byte : UInt8} (more : Bytes)
    (word : n < 2 ^ 64) (inside : plain.length < n) (single : ∀ b ∈ plain, b.toNat < 128)
    (continues : Text.Continues byte) :
    ∃ error, Form.text.read (varint n ++ (plain ++ byte :: more)) = .error error := by
  obtain ⟨behind, rfl⟩ : ∃ behind, n = plain.length + (behind + 1) :=
    ⟨n - plain.length - 1, by omega⟩
  have front : (plain ++ byte :: more).take (plain.length + (behind + 1)) =
      plain ++ byte :: more.take behind := by
    rw [List.take_length_add_append, List.take_succ_cons]
  rw [read_text_announced _ word, front, Text.ofUtf8?_continues plain _ single continues]
  split <;> exact ⟨_, rfl⟩

/-- Of a counted sequence whose first item cannot be read, nothing is read. -/
theorem readCounted_error {α : Type} {item : Reader Error α} {n : Nat} {bytes : Bytes}
    {error : Error} (word : n < 2 ^ 64) (positive : 0 < n) (stuck : item bytes = .error error) :
    readCounted item (varint n ++ bytes) = .error error := by
  obtain ⟨fewer, rfl⟩ : ∃ fewer, n = fewer + 1 := ⟨n - 1, by omega⟩
  have count : Form.size.read (varint (fewer + 1) ++ bytes) = .ok (fewer + 1, bytes) :=
    Form.roundTrips_size (fewer + 1) word bytes
  change (Form.size.read (varint (fewer + 1) ++ bytes) >>= fun found =>
    Reader.exactly item found.1 found.2) = _
  rw [count]
  change (item bytes >>= fun found => (do
    let rest ← Reader.exactly item fewer
    pure (found.1 :: rest) : Reader Error (List α)) found.2) = _
  rw [stuck]
  rfl

end Compact

/-! ## The self-describing reader -/

namespace Cbor

/-- A small number of the compact encoding is the header of a natural number. -/
theorem reads_untagged_varint (n : Nat) (tiny : n < 24) :
    readUntagged.Reads (Compact.varint n) (.positive n) := by
  have same : header 0 n = Compact.varint n := by
    rw [header_of_lt 0 n tiny, Compact.varint_of_lt n (by omega), Nat.zero_mul, Nat.zero_add]
  have header := reads_header 0 n (.positive n) (by decide) (by omega) fun _ => rfl
  exact reads_untagged (same ▸ header) (by simp)

/-- A natural number stands for no alternative. -/
theorem fails_readValue_varint (n : Nat) (tiny : n < 24) :
    readValue.Fails (Compact.varint n) .unexpected := by
  have closed : openChoice.Fails (Compact.varint n) .unexpected := by
    intro rest
    simp only [openChoice, reads_untagged_varint n tiny rest]
  unfold readValue depthLimit readValueWithin
  exact closed.bind _

theorem fails_readTyped_varint (n : Nat) (tiny : n < 24) :
    readTyped.Fails (Compact.varint n) .unexpected := by
  have closed : openMap.Fails (Compact.varint n) .unexpected :=
    (reads_untagged_varint n tiny).bind_throw rfl
  exact closed.bind _

end Cbor

namespace Compact

/-- A value begins with the position of its kind. -/
theorem writeValue_front (value : Value) :
    ∃ n more, writeValue value = varint n ++ more ∧ n < 24 := by
  cases value with
  | null => exact ⟨0, [], rfl, by decide⟩
  | bool truth => exact ⟨1, _, rfl, by decide⟩
  | number x => exact ⟨2, _, rfl, by decide⟩
  | string text => exact ⟨3, _, rfl, by decide⟩
  | list items => exact ⟨4, _, List.append_assoc .., by decide⟩
  | set items => exact ⟨5, _, List.append_assoc .., by decide⟩
  | tuple items => exact ⟨6, _, List.append_assoc .., by decide⟩
  | map members => exact ⟨7, _, List.append_assoc .., by decide⟩
  | object members => exact ⟨8, _, List.append_assoc .., by decide⟩

end Compact

/-! ## Across the modes -/

namespace Codec

theorem decodeValue_legacy_current (value : Value) :
    (ofMode .legacy).decodeValue ((ofMode .current).encodeValue value) =
      .error (.compact .unknownVariant) := by
  obtain ⟨n, more, written, unknown, word⟩ := Cbor.writeValue_front value
  have found := (Compact.fails_readValue more unknown word).front []
  rw [List.append_nil, ← written] at found
  exact congrArg (Except.mapError CodecError.compact) found

theorem decodeValue_current_legacy (value : Value) :
    (ofMode .current).decodeValue ((ofMode .legacy).encodeValue value) =
      .error (.cbor .unexpected) := by
  obtain ⟨n, more, written, tiny⟩ := Compact.writeValue_front value
  have found := (Cbor.fails_readValue_varint n tiny).front more
  rw [← written] at found
  exact congrArg (Except.mapError CodecError.cbor) found

theorem decodeResult_current_legacy (value : Value) :
    ∃ bytes, (ofMode .legacy).encodeResult value = .ok bytes ∧
      (ofMode .current).decodeResult bytes = .error (.cbor .unexpected) := by
  have encoded := encodeResult_compact (TypeRegistry.holdsValues_registerBuiltin .empty) value
  refine ⟨_, encoded, ?_⟩
  have front : TypeRegistry.blob.write (TypeRegistry.valueName, Compact.writeValue value) =
      Compact.varint 11 ++ (Text.utf8 TypeRegistry.valueName ++
        Compact.Form.bytes.write (Compact.writeValue value)) := List.append_assoc ..
  have found := (Cbor.fails_readTyped_varint 11 (by decide)).front
    (Text.utf8 TypeRegistry.valueName ++ Compact.Form.bytes.write (Compact.writeValue value))
  simp only [ofMode, decodeResult, front, found, Except.mapError, bind, Except.bind]

/-- The name of the type of a result stands at its front. -/
theorem read_text_of_blob {bytes payload : Bytes} {name : String}
    (found : TypeRegistry.blob.decode bytes = .ok (name, payload)) :
    ∃ rest, Compact.Form.text.read bytes = .ok (name, rest) := by
  obtain ⟨_, ran⟩ := front_eq_ok.mp found
  obtain ⟨first, rest, named, later⟩ := exists_of_bind_ok ran
  obtain ⟨content, _, _, made⟩ := exists_of_bind_ok later
  obtain ⟨rfl, -⟩ := Prod.mk.inj (Prod.mk.inj (Except.ok.inj made)).1
  exact ⟨rest, named⟩

/-- A registry that holds values only knows no name of another length than theirs. -/
theorem decode_builtin_varint (n : Nat) (bytes : Bytes) (word : n < 2 ^ 64)
    (unknown : (Text.utf8 TypeRegistry.valueName).length ≠ n) :
    ∃ error, TypeRegistry.builtin.decode (Compact.varint n ++ bytes) = .error error := by
  unfold TypeRegistry.decode
  cases found : TypeRegistry.blob.decode (Compact.varint n ++ bytes) with
  | error error => exact ⟨_, rfl⟩
  | ok content =>
    obtain ⟨name, payload⟩ := content
    obtain ⟨rest, read⟩ := read_text_of_blob found
    have other : (name == TypeRegistry.valueName) = false := by
      rw [beq_eq_false_iff_ne]
      rintro rfl
      exact unknown (Compact.length_of_read_text word read)
    have absent : TypeRegistry.builtin.readers.lookup name = none := by
      simp [TypeRegistry.builtin, TypeRegistry.registerBuiltin, TypeRegistry.register,
        TypeRegistry.empty, List.lookup_cons, other]
    refine ⟨.unregistered name, ?_⟩
    simp only [Except.mapError, bind, Except.bind, absent]

/-- The headers in front of the field `ty` are the length of a name that is far too long. -/
theorem decodeResult_legacy_current (value : Value) :
    ∃ bytes error, (ofMode .current).encodeResult value = .ok bytes ∧
      (ofMode .legacy).decodeResult bytes = .error error := by
  have front := Cbor.map_front 2 (by decide) "ty" (by decide)
    (Cbor.writeText value.ty.expression) (Cbor.writeField "value" (Cbor.writeValue value))
  obtain ⟨error, found⟩ := decode_builtin_varint _ (Text.utf8 "ty" ++
    (Cbor.writeText value.ty.expression ++ Cbor.writeField "value" (Cbor.writeValue value)))
    (show 2 + 32 + 128 * ((Text.utf8 "ty").length + 96) < 2 ^ 64 by decide) (by decide)
  rw [← front] at found
  exact ⟨_, error, rfl, found⟩

/-- The bytes between the first character of `version` and the array of entries. -/
def versionToRoot : Bytes :=
  Text.utf8 "ersion" ++ (Cbor.writeNat 1 ++ Cbor.writeText "root")

theorem versionToRoot_single (b : UInt8) (here : b ∈ versionToRoot) : b.toNat < 128 := by
  have all : versionToRoot.all (fun b => decide (b.toNat < 128)) = true := by decide
  exact of_decide_eq_true (List.all_eq_true.mp all b here)

/-- What the compact reader sees of a specification: a count, the length of a name, and a name that
is no text. -/
theorem encodeSpec_front (spec : ObjectSpec) :
    ∃ byte more, Text.Continues byte ∧ (ofMode .current).encodeSpec spec =
      Compact.varint (2 + 32 + 128 * (7 + 96)) ++
        (Compact.varint 118 ++ (versionToRoot ++ byte :: more)) := by
  let root := (WireDocument.ofSpec spec).root
  obtain ⟨byte, behind, opening, continues⟩ := Cbor.arrayHeader_front root.length
  have named : Compact.varint 118 ++ versionToRoot =
      Text.utf8 "version" ++ (Cbor.writeNat 1 ++ Cbor.writeText "root") := by decide
  refine ⟨byte, behind ++ Cbor.writeEntries root, continues, ?_⟩
  calc
    (ofMode .current).encodeSpec spec
      = Cbor.mapHeader 2 ++ Cbor.writeField "version" (Cbor.writeNat 1) ++
          Cbor.writeField "root" (Cbor.arrayHeader root.length ++ Cbor.writeEntries root) := rfl
    _ = Compact.varint (2 + 32 + 128 * (7 + 96)) ++
          (Text.utf8 "version" ++ (Cbor.writeNat 1 ++
            Cbor.writeField "root" (Cbor.arrayHeader root.length ++ Cbor.writeEntries root))) :=
        Cbor.map_front 2 (by decide) "version" (by decide) _ _
    _ = Compact.varint (2 + 32 + 128 * (7 + 96)) ++
          ((Text.utf8 "version" ++ (Cbor.writeNat 1 ++ Cbor.writeText "root")) ++
            (byte :: behind ++ Cbor.writeEntries root)) := by
        simp only [Cbor.writeField, opening, List.append_assoc]
    _ = _ := by rw [← named, List.append_assoc, List.cons_append]

theorem decodeSpec_legacy_current (spec : ObjectSpec) :
    ∃ error, (ofMode .legacy).decodeSpec ((ofMode .current).encodeSpec spec) = .error error := by
  obtain ⟨byte, more, continues, written⟩ := encodeSpec_front spec
  obtain ⟨error, unread⟩ := Compact.read_text_continues versionToRoot more
    (show 118 < 2 ^ 64 by decide) (by decide) versionToRoot_single continues
  have stuck : Compact.readNamed Compact.readSpec
      (Compact.varint 118 ++ (versionToRoot ++ byte :: more)) = .error error := by
    change (Compact.Form.text.read _ >>= fun named => _) = _
    rw [unread]
    rfl
  have counted := Compact.readCounted_error
    (show 2 + 32 + 128 * (7 + 96) < 2 ^ 64 by decide) (by decide) stuck
  refine ⟨.compact error, ?_⟩
  rw [written]
  change Except.mapError CodecError.compact (Except.map (·.1)
    (Compact.readCounted (Compact.readNamed Compact.readSpec) _ >>= fun found =>
      Except.ok (Fields.ofList found.1, found.2))) = _
  rw [counted]
  rfl

/-- With only the type of values registered, neither mode reads what the other wrote. -/
theorem modes_separate (value : Value) (spec : ObjectSpec) :
    (ofMode .legacy).decodeValue ((ofMode .current).encodeValue value) =
      .error (.compact .unknownVariant) ∧
    (ofMode .current).decodeValue ((ofMode .legacy).encodeValue value) =
      .error (.cbor .unexpected) ∧
    (∃ bytes error, (ofMode .current).encodeResult value = .ok bytes ∧
      (ofMode .legacy).decodeResult bytes = .error error) ∧
    (∃ bytes, (ofMode .legacy).encodeResult value = .ok bytes ∧
      (ofMode .current).decodeResult bytes = .error (.cbor .unexpected)) ∧
    (∃ error, (ofMode .legacy).decodeSpec ((ofMode .current).encodeSpec spec) = .error error) :=
  ⟨decodeValue_legacy_current value, decodeValue_current_legacy value,
    decodeResult_legacy_current value, decodeResult_current_legacy value,
    decodeSpec_legacy_current spec⟩

end Codec

end PluginBridge
