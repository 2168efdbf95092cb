import PluginBridge.Proofs.CborMessageSteady
import PluginBridge.Proofs.CompactSteady
import PluginBridge.Proofs.RoundTrip

/-! Bytes that end too early. Nothing is decoded from a part of what was encoded, in either mode, and
bytes added behind those that decode change nothing, whoever wrote them. -/

namespace PluginBridge.Codec

open Reader

variable {ε δ α β : Type}

/-- Bytes behind those that decode change nothing, so of two sequences of bytes of which one begins
with the other no two different things are decoded. -/
structure PrefixStable (decode : Bytes → Except ε α) : Prop where
  extended : ∀ bytes a, decode bytes = .ok a → ∀ more, decode (bytes ++ more) = .ok a
  unambiguous : ∀ short long, short <+: long → ∀ a b, decode short = .ok a →
    decode long = .ok b → a = b

def RefusesCuts (decode : Bytes → Except ε α) (whole : Bytes) : Prop :=
  ∀ kept, kept <+: whole → kept ≠ whole → ∃ error, decode kept = .error error

/-- The decoder asks the reader for what is at the front, and then looks at nothing else. -/
structure DecodesBy (decode : Bytes → Except ε β) (reader : Reader δ α) : Prop where
  failed : ∀ bytes error, reader.front bytes = .error error → ∃ error, decode bytes = .error error
  found : ∀ bytes other a, reader.front bytes = .ok a → reader.front other = .ok a →
    decode bytes = decode other

theorem DecodesBy.prefixStable {decode : Bytes → Except ε β} {reader : Reader δ α}
    (decodes : DecodesBy decode reader) (steady : reader.Steady) : PrefixStable decode := by
  have extended (bytes : Bytes) (b : β) (decoded : decode bytes = .ok b) (more : Bytes) :
      decode (bytes ++ more) = .ok b := by
    cases front : reader.front bytes with
    | error error =>
      obtain ⟨error, failed⟩ := decodes.failed bytes error front
      rw [failed] at decoded
      cases decoded
    | ok a =>
      have longer := steady.front front more
      rw [← decodes.found bytes (bytes ++ more) a front longer, decoded]
  refine ⟨extended, ?_⟩
  rintro short long ⟨more, rfl⟩ a b decodedShort decodedLong
  have same := (extended short a decodedShort more).symm.trans decodedLong
  exact Except.ok.inj same

theorem DecodesBy.refusesCuts {decode : Bytes → Except ε β} {reader : Reader δ α}
    (decodes : DecodesBy decode reader) (steady : reader.Steady) {whole : Bytes}
    (taken : ∀ a rest, reader whole = .ok (a, rest) → rest = []) : RefusesCuts decode whole := by
  rintro kept ⟨cut, rfl⟩ proper
  have some : cut ≠ [] := fun none => proper (by rw [none, List.append_nil])
  obtain ⟨error, failed⟩ := steady.front_cut taken some
  exact decodes.failed kept error failed

/-! ## The readers of the decoders -/

theorem decodesBy_front (reader : Reader δ α) (wrap : δ → ε) :
    DecodesBy (fun bytes => (reader.front bytes).mapError wrap) reader where
  failed bytes error front := by
    refine ⟨wrap error, ?_⟩
    simp only [front, Except.mapError]
  found bytes other a front alike := by
    simp only [front, alike]

/-- What is at the front may be checked or read further. -/
theorem decodesBy_checked (reader : Reader δ α) (wrap : δ → ε) (check : α → Except ε β) :
    DecodesBy (fun bytes => (reader.front bytes).mapError wrap >>= check) reader where
  failed bytes error front := by
    refine ⟨wrap error, ?_⟩
    simp only [front, Except.mapError]
    rfl
  found bytes other a front alike := by
    simp only [front, alike]

section Decoders

variable (types : TypeRegistry)

theorem decodesBy_compactValue : DecodesBy (mk .legacy types).decodeValue Compact.readValue :=
  decodesBy_front _ _

theorem decodesBy_compactSpec :
    DecodesBy (mk .legacy types).decodeSpec Compact.Form.objectSpec.read :=
  decodesBy_front _ _

theorem decodesBy_blob : DecodesBy (mk .legacy types).decodeResult TypeRegistry.blob.read :=
  decodesBy_checked _ _ _

theorem decodesBy_cborValue : DecodesBy (mk .current types).decodeValue Cbor.readValue :=
  decodesBy_front _ _

theorem decodesBy_document : DecodesBy (mk .current types).decodeSpec Cbor.readDocument :=
  decodesBy_checked _ _ _

theorem decodesBy_typed : DecodesBy (mk .current types).decodeResult Cbor.readTyped :=
  decodesBy_checked _ _ _

end Decoders

theorem steady_blob : TypeRegistry.blob.read.Steady :=
  Compact.Form.steady_pair Compact.Form.steady_text Compact.Form.steady_bytes

theorem prefixStable_decodeValue (codec : Codec) : PrefixStable codec.decodeValue := by
  obtain ⟨mode, types⟩ := codec
  cases mode with
  | legacy => exact (decodesBy_compactValue types).prefixStable Compact.steady_readValue
  | current => exact (decodesBy_cborValue types).prefixStable (Cbor.steady_readValueWithin _)

theorem prefixStable_decodeResult (codec : Codec) : PrefixStable codec.decodeResult := by
  obtain ⟨mode, types⟩ := codec
  cases mode with
  | legacy => exact (decodesBy_blob types).prefixStable steady_blob
  | current => exact (decodesBy_typed types).prefixStable Cbor.steady_readTyped

theorem prefixStable_decodeSpec (codec : Codec) : PrefixStable codec.decodeSpec := by
  obtain ⟨mode, types⟩ := codec
  cases mode with
  | legacy => exact (decodesBy_compactSpec types).prefixStable Compact.Form.steady_objectSpec
  | current => exact (decodesBy_document types).prefixStable Cbor.steady_readDocument

/-! ## What was encoded is taken to its last byte -/

theorem refusesCuts_encodeValue {near far : Codec} (same : far.mode = near.mode) (value : Value)
    (ordered : value.Ordered) (fits : (near.encodeValue value).length < 2 ^ 64) :
    RefusesCuts far.decodeValue (near.encodeValue value) := by
  obtain ⟨mode, near⟩ := near
  obtain ⟨other, far⟩ := far
  obtain rfl : other = mode := same
  cases other with
  | legacy =>
    have trip := Compact.roundTrips_value value ordered fits
    exact (decodesBy_compactValue far).refusesCuts Compact.steady_readValue (Reads.whole trip)
  | current =>
    have settled := Cbor.readsIff_writeValue value Cbor.depthLimit ordered fits
    exact (decodesBy_cborValue far).refusesCuts (Cbor.steady_readValueWithin _) settled.whole

theorem refusesCuts_encodeSpec {near far : Codec} (same : far.mode = near.mode) (spec : ObjectSpec)
    (ascending : Fields.Ascending spec) (ordered : Spec.OrderedEntries spec)
    (fits : (near.encodeSpec spec).length < 2 ^ 64) :
    RefusesCuts far.decodeSpec (near.encodeSpec spec) := by
  obtain ⟨mode, near⟩ := near
  obtain ⟨other, far⟩ := far
  obtain rfl : other = mode := same
  cases other with
  | legacy =>
    have trip := Compact.roundTrips_objectSpec spec ascending ordered fits
    exact (decodesBy_compactSpec far).refusesCuts Compact.Form.steady_objectSpec (Reads.whole trip)
  | current =>
    have literals := WireSpec.ordered_ofEntries spec ordered
    have settled := Cbor.readsIff_writeDocument (.ofSpec spec) literals fits
    exact (decodesBy_document far).refusesCuts Cbor.steady_readDocument settled.whole

theorem refusesCuts_encodeResult {near far : Codec} (same : far.mode = near.mode)
    (held : near.mode = .legacy → near.types.HoldsValues) (value : Value) (ordered : value.Ordered)
    {bytes : Bytes} (encoded : near.encodeResult value = .ok bytes) (fits : bytes.length < 2 ^ 64) :
    RefusesCuts far.decodeResult bytes := by
  obtain ⟨mode, near⟩ := near
  obtain ⟨other, far⟩ := far
  obtain rfl : other = mode := same
  cases other with
  | legacy =>
    rw [encodeResult_compact (held rfl)] at encoded
    obtain rfl := Except.ok.inj encoded
    have trip := roundTrips_blob _ fits
    exact (decodesBy_blob far).refusesCuts steady_blob (Reads.whole trip)
  | current =>
    obtain rfl := Except.ok.inj encoded
    have settled := Cbor.readsIff_writeTyped value.ty.expression value ordered fits
    exact (decodesBy_typed far).refusesCuts Cbor.steady_readTyped settled.whole

/-- In either mode no value, result or specification is decoded from a part of its bytes, however
deep it nests; and whatever bytes decode, they decode to the same with others behind them. -/
theorem cut_refused_rest_ignored (near far : Codec) (same : far.mode = near.mode)
    (held : near.mode = .legacy → near.types.HoldsValues) :
    (∀ value : Value, value.Ordered → (near.encodeValue value).length < 2 ^ 64 →
      RefusesCuts far.decodeValue (near.encodeValue value)) ∧
    (∀ value : Value, value.Ordered → ∃ bytes, near.encodeResult value = .ok bytes ∧
      (bytes.length < 2 ^ 64 → RefusesCuts far.decodeResult bytes)) ∧
    (∀ spec : ObjectSpec, Fields.Ascending spec → Spec.OrderedEntries spec →
      (near.encodeSpec spec).length < 2 ^ 64 →
      RefusesCuts far.decodeSpec (near.encodeSpec spec)) ∧
    PrefixStable far.decodeValue ∧ PrefixStable far.decodeResult ∧
    PrefixStable far.decodeSpec := by
  refine ⟨refusesCuts_encodeValue same, ?_, refusesCuts_encodeSpec same,
    prefixStable_decodeValue far, prefixStable_decodeResult far, prefixStable_decodeSpec far⟩
  intro value ordered
  obtain ⟨bytes, encoded⟩ := exists_encodeResult near held value
  exact ⟨bytes, encoded, refusesCuts_encodeResult same held value ordered encoded⟩

section Example

/-- A list of null as no writer here writes it: behind a tag, with an array that ends by a break. -/
def looseList : Bytes :=
  [0xc0, 0xa1, 0x64, 0x4c, 0x69, 0x73, 0x74, 0x9f, 0x64, 0x4e, 0x75, 0x6c, 0x6c, 0xff]

theorem cut_refused_motley :
    RefusesCuts (ofMode .legacy).decodeValue ((ofMode .legacy).encodeValue motley) ∧
    (∃ bytes, (ofMode .legacy).encodeResult motley = .ok bytes ∧
      RefusesCuts (ofMode .legacy).decodeResult bytes) ∧
    RefusesCuts (ofMode .current).decodeSpec ((ofMode .current).encodeSpec motleySpec) ∧
    ∀ more, (ofMode .current).decodeValue (looseList ++ more) = .ok (.list [.null]) := by
  have holds := TypeRegistry.holdsValues_registerBuiltin .empty
  obtain ⟨values, results, -⟩ :=
    cut_refused_rest_ignored (ofMode .legacy) (ofMode .legacy) rfl fun _ => holds
  obtain ⟨-, -, specs, stable, -⟩ :=
    cut_refused_rest_ignored (ofMode .current) (ofMode .current) rfl fun _ => holds
  obtain ⟨bytes, encoded, refuses⟩ := results motley motley_ordered
  have written := Except.ok.inj (encoded.symm.trans (encodeResult_compact holds motley))
  have few : ((ofMode .current).encodeSpec motleySpec).length < 2 ^ 64 := by decide +kernel
  refine ⟨values motley motley_ordered (by decide),
    ⟨bytes, encoded, refuses (written ▸ length_result_motley)⟩,
    specs motleySpec (by decide) motleySpec_ordered few, ?_⟩
  exact stable.extended looseList (.list [.null]) rfl

end Example

end PluginBridge.Codec
