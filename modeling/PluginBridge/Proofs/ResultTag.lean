import PluginBridge.Proofs.Codec

/-! The type expression of a result decides over it. In the self-describing mode a value is accepted
under the expression of exactly its own type, wherever the two stand in the map, and under no other,
not even that of a type to which it conforms. -/

namespace PluginBridge

namespace Cbor

def writeTypedLast (expression : String) (value : Value) : Bytes :=
  mapHeader 2 ++ writeField "value" (writeValue value) ++ writeField "ty" (writeText expression)

theorem readsIff_writeTypedLast (expression : String) (value : Value) (ordered : value.Ordered)
    (fits : (writeTypedLast expression value).length < 2 ^ 64) :
    readTyped.ReadsIff (writeTypedLast expression value) (expression, value) .tooDeep
      (valueDepth value + 1 ≤ depthLimit) := by
  simp only [writeTypedLast, writeField, List.length_append] at fits
  have typed := reads_writeText expression (by omega)
  have content := readsIff_writeValue value (depthLimit - 1) ordered (by omega)
  have fields := readsIff_readTwoFields_swapped (depthLimit - 1)
    (show (Text.utf8 "ty").length ≤ blockSize by decide)
    (show (Text.utf8 "value").length ≤ blockSize by decide) (by decide) typed content
  exact fields.congr Nat.succ_le_succ_iff

/-- The bytes are the map of a type expression and a value, in one order or the other. -/
inductive WritesTyped (expression : String) (value : Value) : Bytes → Prop where
  | first : WritesTyped expression value (writeTyped expression value)
  | last : WritesTyped expression value (writeTypedLast expression value)

theorem WritesTyped.front {expression : String} {value : Value} {bytes : Bytes}
    (written : WritesTyped expression value bytes) (ordered : value.Ordered)
    (shallow : valueDepth value + 1 ≤ depthLimit) (fits : bytes.length < 2 ^ 64) (rest : Bytes) :
    readTyped.front (bytes ++ rest) = .ok (expression, value) := by
  cases written with
  | first => exact ((readsIff_writeTyped expression value ordered fits).reads shallow).front rest
  | last => exact ((readsIff_writeTypedLast expression value ordered fits).reads shallow).front rest

end Cbor

namespace Codec

/-- What decoding a value under a type expression comes to. -/
structure Judged (expression : String) (value : Value) (decoded : Except CodecError Value) :
    Prop where
  accepted : decoded = .ok value ↔ Ty.parse expression = .ok value.ty
  unparsed : ∀ error, Ty.parse expression = .error error →
    decoded = .error (.typeExpression error)
  mismatched : ∀ expected, Ty.parse expression = .ok expected → expected ≠ value.ty →
    decoded = .error (.typeMismatch expected value.ty)

theorem checkTyped_of_parse_error {expression : String} {error : Ty.ParseError}
    (unparsed : Ty.parse expression = .error error) (value : Value) :
    checkTyped expression value = .error (.typeExpression error) := by
  simp only [checkTyped, unparsed, Except.mapError, bind, Except.bind]

theorem checkTyped_of_parse {expression : String} {expected : Ty}
    (parsed : Ty.parse expression = .ok expected) (value : Value) :
    checkTyped expression value =
      if value.ty = expected then .ok value else .error (.typeMismatch expected value.ty) := by
  simp only [checkTyped, parsed, Except.mapError, bind, Except.bind]

theorem judged_checkTyped (expression : String) (value : Value) :
    Judged expression value (checkTyped expression value) where
  accepted := by
    cases parsed : Ty.parse expression with
    | error error => simp [checkTyped_of_parse_error parsed]
    | ok expected => simp [checkTyped_of_parse parsed, eq_comm]
  unparsed _ failed := checkTyped_of_parse_error failed value
  mismatched _ parsed distinct := by rw [checkTyped_of_parse parsed, if_neg distinct.symm]

theorem decodeResult_of_readTyped (types : TypeRegistry) {bytes : Bytes} {expression : String}
    {value : Value} (read : Cbor.readTyped.front bytes = .ok (expression, value)) :
    (mk .current types).decodeResult bytes = checkTyped expression value := by
  simp only [decodeResult, read, Except.mapError, bind, Except.bind]

theorem checkTyped_eq_ok_iff {expression : String} {value other : Value} :
    checkTyped expression value = .ok other ↔
      value = other ∧ Ty.parse expression = .ok value.ty := by
  cases parsed : Ty.parse expression with
  | error error => simp [checkTyped_of_parse_error parsed]
  | ok expected =>
    rw [checkTyped_of_parse parsed]
    split
    next same => simp [same]
    next distinct => simp [Ne.symm distinct]

/-- The type expression of a result decides: it is parsed and compared with the type of the value
beside it, in whatever order the two were written. No bytes at all decode to a value unless they
hold it together with an expression of exactly its type. -/
theorem decodeResult_judged (types : TypeRegistry) :
    (∀ (expression : String) (value : Value) (bytes rest : Bytes),
      Cbor.WritesTyped expression value bytes → value.Ordered →
      Cbor.valueDepth value + 1 ≤ Cbor.depthLimit → bytes.length < 2 ^ 64 →
      Judged expression value ((mk .current types).decodeResult (bytes ++ rest))) ∧
    ∀ (bytes : Bytes) (value : Value), (mk .current types).decodeResult bytes = .ok value ↔
      ∃ expression, Cbor.readTyped.front bytes = .ok (expression, value) ∧
        Ty.parse expression = .ok value.ty := by
  constructor
  · intro expression value bytes rest written ordered shallow fits
    rw [decodeResult_of_readTyped types (written.front ordered shallow fits rest)]
    exact judged_checkTyped expression value
  · intro bytes value
    constructor
    · intro decoded
      cases read : Cbor.readTyped.front bytes with
      | error error => simp [decodeResult, read, Except.mapError, bind, Except.bind] at decoded
      | ok found =>
        obtain ⟨expression, payload⟩ := found
        rw [decodeResult_of_readTyped types read, checkTyped_eq_ok_iff] at decoded
        obtain ⟨rfl, parsed⟩ := decoded
        exact ⟨expression, rfl, parsed⟩
    · rintro ⟨expression, read, parsed⟩
      rw [decodeResult_of_readTyped types read, checkTyped_eq_ok_iff]
      exact ⟨rfl, parsed⟩

section Example

/-- The empty list conforms to `list(string)` and is refused under it. -/
theorem decodeResult_judged_empty :
    (Value.list []).conforms (.list .string) = true ∧
    (ofMode .current).decodeResult (Cbor.writeTypedLast "list(string)" (.list []) ++ [0xff]) =
      .error (.typeMismatch (.list .string) (.list .any)) ∧
    (ofMode .current).decodeResult (Cbor.writeTyped " list( any )" (.list []) ++ [0xff]) =
      .ok (.list []) ∧
    (ofMode .current).decodeResult (Cbor.writeTyped "list(" (.list []) ++ [0xff]) =
      .error (.typeExpression ⟨5, .expectedKeyword⟩) := by
  obtain ⟨judged, -⟩ := decodeResult_judged .builtin
  have shallow : Cbor.valueDepth (.list []) + 1 ≤ Cbor.depthLimit := by decide
  have narrow := judged "list(string)" (.list []) _ [0xff] .last trivial shallow (by decide)
  have fitting := judged " list( any )" (.list []) _ [0xff] .first trivial shallow (by decide)
  have broken := judged "list(" (.list []) _ [0xff] .first trivial shallow (by decide)
  exact ⟨rfl, narrow.mismatched (.list .string) (by decide +kernel) (by decide),
    fitting.accepted.mpr (by decide +kernel), broken.unparsed _ (by decide +kernel)⟩

end Example

end Codec

end PluginBridge
