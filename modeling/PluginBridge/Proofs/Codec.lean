import PluginBridge.Codec
import PluginBridge.Proofs.CborWire
import PluginBridge.Proofs.CompactSpec
import PluginBridge.Proofs.Wire

/-! What one end of a connection writes, the other end reads back: values, specifications and
results, in both modes. -/

namespace PluginBridge

/-! ## The types of ordered values -/

namespace Value

theorem ordered_sharedTy {tys : List Ty} (ordered : Ty.OrderedItems tys) :
    (sharedTy tys).Ordered := by
  cases tys with
  | nil => trivial
  | cons ty rest =>
    by_cases same : rest.all (· == ty)
    · rw [sharedTy, if_pos same]
      exact ordered.1
    · rw [sharedTy, if_neg same]
      trivial

theorem orderedItems_attributes {attributes : List (String × Ty)}
    (ordered : Ty.OrderedAttributes attributes) : Ty.OrderedItems (attributes.map (·.2)) := by
  induction attributes with
  | nil => trivial
  | cons member rest ih => exact ⟨ordered.1, ih ordered.2⟩

theorem map_fst_tyMembers (members : List (String × Value)) :
    (tyMembers members).map (·.1) = members.map (·.1) := by
  induction members with
  | nil => rfl
  | cons member rest ih =>
    rw [tyMembers, List.map_cons, ih]
    rfl

theorem ascending_tyMembers {members : List (String × Value)}
    (ascending : Fields.Ascending members) : Fields.Ascending (tyMembers members) := by
  unfold Fields.Ascending at *
  rw [← List.pairwise_map (f := Prod.fst)] at *
  rwa [map_fst_tyMembers]

mutual

theorem ordered_ty (value : Value) (ordered : value.Ordered) : value.ty.Ordered := by
  cases value with
  | null => trivial
  | bool truth => trivial
  | number x => trivial
  | string text => trivial
  | list items => exact ordered_sharedTy (ordered_tyItems items ordered)
  | set items => exact ordered_sharedTy (ordered_tyItems items ordered)
  | tuple items => exact ordered_tyItems items ordered
  | map members =>
    exact ordered_sharedTy (orderedItems_attributes (ordered_tyMembers members ordered.2))
  | object members => exact ⟨ascending_tyMembers ordered.1, ordered_tyMembers members ordered.2⟩
termination_by structural value

theorem ordered_tyItems (items : List Value) (ordered : OrderedItems items) :
    Ty.OrderedItems (tyItems items) := by
  cases items with
  | nil => trivial
  | cons item rest => exact ⟨ordered_ty item ordered.1, ordered_tyItems rest ordered.2⟩
termination_by structural items

theorem ordered_tyMembers (members : List (String × Value)) (ordered : OrderedMembers members) :
    Ty.OrderedAttributes (tyMembers members) := by
  cases members with
  | nil => trivial
  | cons member rest =>
    obtain ⟨name, value⟩ := member
    exact ⟨ordered_ty value ordered.1, ordered_tyMembers rest ordered.2⟩
termination_by structural members

end

end Value

/-! ## Nesting -/

namespace Mode

/-- A value nests no deeper than the reader of the mode goes; the compact one goes anywhere. -/
def AdmitsValue : Mode → Value → Prop
  | .legacy, _ => True
  | .current, value => Cbor.valueDepth value ≤ Cbor.depthLimit

/-- A result stands inside one more item, together with its type. -/
def AdmitsResult : Mode → Value → Prop
  | .legacy, _ => True
  | .current, value => Cbor.valueDepth value + 1 ≤ Cbor.depthLimit

def AdmitsSpec : Mode → ObjectSpec → Prop
  | .legacy, _ => True
  | .current, spec => Cbor.documentDepth (.ofSpec spec) ≤ Cbor.depthLimit

end Mode

structure TypeRegistry.HoldsValues (registry : TypeRegistry) : Prop where
  named : registry.names.lookup ResultType.value.identifier = some TypeRegistry.valueName
  read : registry.readers.lookup TypeRegistry.valueName = some ResultType.value.decode

theorem TypeRegistry.holdsValues_registerBuiltin (registry : TypeRegistry) :
    registry.registerBuiltin.HoldsValues where
  named := by simp [registerBuiltin, register]
  read := by simp [registerBuiltin, register]

namespace Codec

theorem checkTyped_self (value : Value) (ordered : value.Ordered) :
    checkTyped value.ty.expression value = .ok value := by
  have parsed := Ty.parseAll_write value.ty (Value.ordered_ty value ordered)
  simp only [checkTyped, Ty.parse, Ty.expression, String.toList_ofList, parsed, Except.mapError,
    bind, Except.bind, if_true]

/-! ## The compact mode -/

section Compact

variable (near far : TypeRegistry) (rest : Bytes)

theorem decodeValue_compact (value : Value) (ordered : value.Ordered)
    (fits : ((mk .legacy near).encodeValue value).length < 2 ^ 64) :
    (mk .legacy far).decodeValue ((mk .legacy near).encodeValue value ++ rest) = .ok value := by
  have found := (Compact.roundTrips_value value ordered fits).decode rest
  exact congrArg (Except.mapError CodecError.compact) found

theorem decodeSpec_compact (spec : ObjectSpec) (ascending : Fields.Ascending spec)
    (ordered : Spec.OrderedEntries spec)
    (fits : ((mk .legacy near).encodeSpec spec).length < 2 ^ 64) :
    (mk .legacy far).decodeSpec ((mk .legacy near).encodeSpec spec ++ rest) = .ok spec := by
  have found := (Compact.roundTrips_objectSpec spec ascending ordered fits).decode rest
  exact congrArg (Except.mapError CodecError.compact) found

theorem length_payload_le (name : String) (payload : Bytes) :
    payload.length ≤ (TypeRegistry.blob.write (name, payload)).length := by
  simp only [TypeRegistry.blob, Compact.Form.pair, Compact.Form.bytes, List.length_append]
  omega

theorem roundTrips_blob (content : String × Bytes)
    (fits : (TypeRegistry.blob.write content).length < 2 ^ 64) :
    TypeRegistry.blob.RoundTrips content := by
  obtain ⟨name, payload⟩ := content
  simp only [TypeRegistry.blob, Compact.Form.pair, Compact.Form.text, Compact.Form.bytes,
    List.length_append] at fits
  exact Compact.Form.roundTrips_pair (Compact.Form.roundTrips_text name (by omega))
    (Compact.Form.roundTrips_bytes payload (by omega))

/-- The bytes of a result name the type of values, and its payload is the value. -/
theorem encodeResult_compact {near : TypeRegistry} (held : near.HoldsValues) (value : Value) :
    (mk .legacy near).encodeResult value =
      .ok (TypeRegistry.blob.write (TypeRegistry.valueName, Compact.writeValue value)) := by
  simp only [encodeResult, TypeRegistry.encode, held.named]
  rfl

variable {near far}

theorem decodeResult_compact (held : near.HoldsValues) (holds : far.HoldsValues) (value : Value)
    (ordered : value.Ordered) {bytes : Bytes}
    (encoded : (mk .legacy near).encodeResult value = .ok bytes) (fits : bytes.length < 2 ^ 64) :
    (mk .legacy far).decodeResult (bytes ++ rest) = .ok value := by
  rw [encodeResult_compact held] at encoded
  obtain rfl := Except.ok.inj encoded
  have named := (roundTrips_blob _ fits).decode rest
  have shorter := length_payload_le TypeRegistry.valueName (Compact.writeValue value)
  have trip := Compact.roundTrips_value value ordered (Nat.lt_of_le_of_lt shorter fits)
  have content : ResultType.value.decode (Compact.writeValue value) = .ok value := by
    have found := trip.decode_self
    simp only [Compact.Form.value] at found
    simp only [ResultType.decode, ResultType.value, Compact.Form.value, found, id]
  simp only [decodeResult, TypeRegistry.decode, named, Except.mapError, bind, Except.bind,
    holds.read]
  exact content

end Compact

/-! ## The self-describing mode -/

section SelfDescribing

variable (near far : TypeRegistry) (rest : Bytes)

theorem decodeValue_cbor (value : Value) (ordered : value.Ordered)
    (fits : ((mk .current near).encodeValue value).length < 2 ^ 64) :
    (mk .current far).decodeValue ((mk .current near).encodeValue value ++ rest) =
      if Cbor.valueDepth value ≤ Cbor.depthLimit then .ok value else .error (.cbor .tooDeep) := by
  have found := (Cbor.readsIff_writeValue value Cbor.depthLimit ordered fits).front rest
  calc
    (mk .current far).decodeValue ((mk .current near).encodeValue value ++ rest)
      = (Cbor.readValue.front (Cbor.writeValue value ++ rest)).mapError .cbor := rfl
    _ = _ := by
      rw [Cbor.readValue, found]
      split <;> rfl

theorem decodeSpec_cbor (spec : ObjectSpec) (ascending : Fields.Ascending spec)
    (ordered : Spec.OrderedEntries spec)
    (fits : ((mk .current near).encodeSpec spec).length < 2 ^ 64) :
    (mk .current far).decodeSpec ((mk .current near).encodeSpec spec ++ rest) =
      if Cbor.documentDepth (.ofSpec spec) ≤ Cbor.depthLimit then .ok spec
      else .error (.cbor .tooDeep) := by
  have literals := WireSpec.ordered_ofEntries spec ordered
  have found := (Cbor.readsIff_writeDocument (.ofSpec spec) literals fits).front rest
  have meant := WireDocument.toSpec_ofSpec spec ascending ordered
  simp only [encodeSpec, decodeSpec, found]
  split
  · simp only [Except.mapError, bind, Except.bind, meant]
  · rfl

theorem decodeResult_cbor (value : Value) (ordered : value.Ordered) {bytes : Bytes}
    (encoded : (mk .current near).encodeResult value = .ok bytes) (fits : bytes.length < 2 ^ 64) :
    (mk .current far).decodeResult (bytes ++ rest) =
      if Cbor.valueDepth value + 1 ≤ Cbor.depthLimit then .ok value
      else .error (.cbor .tooDeep) := by
  obtain rfl := Except.ok.inj encoded
  have found := (Cbor.readsIff_writeTyped value.ty.expression value ordered fits).front rest
  simp only [decodeResult, found]
  split
  · simp only [Except.mapError, bind, Except.bind, checkTyped_self value ordered]
  · rfl

end SelfDescribing

/-! ## Both modes, as far as they admit a value -/

theorem decodeValue_encodeValue {near far : Codec} (same : far.mode = near.mode) (value : Value)
    (ordered : value.Ordered) (admits : near.mode.AdmitsValue value)
    (fits : (near.encodeValue value).length < 2 ^ 64) :
    far.decodeValue (near.encodeValue value) = .ok value := by
  obtain ⟨mode, near⟩ := near
  obtain ⟨other, far⟩ := far
  obtain rfl : other = mode := same
  rw [← List.append_nil (encodeValue _ value)]
  cases other with
  | legacy => exact decodeValue_compact near far [] value ordered fits
  | current => exact (decodeValue_cbor near far [] value ordered fits).trans (if_pos admits)

theorem decodeSpec_encodeSpec {near far : Codec} (same : far.mode = near.mode) (spec : ObjectSpec)
    (ascending : Fields.Ascending spec) (ordered : Spec.OrderedEntries spec)
    (admits : near.mode.AdmitsSpec spec) (fits : (near.encodeSpec spec).length < 2 ^ 64) :
    far.decodeSpec (near.encodeSpec spec) = .ok spec := by
  obtain ⟨mode, near⟩ := near
  obtain ⟨other, far⟩ := far
  obtain rfl : other = mode := same
  rw [← List.append_nil (encodeSpec _ spec)]
  cases other with
  | legacy => exact decodeSpec_compact near far [] spec ascending ordered fits
  | current => exact (decodeSpec_cbor near far [] spec ascending ordered fits).trans (if_pos admits)

theorem exists_encodeResult (codec : Codec)
    (holds : codec.mode = .legacy → codec.types.HoldsValues) (value : Value) :
    ∃ bytes, codec.encodeResult value = .ok bytes := by
  obtain ⟨mode, types⟩ := codec
  cases mode with
  | legacy => exact ⟨_, encodeResult_compact (holds rfl) value⟩
  | current => exact ⟨_, rfl⟩

theorem decodeResult_encodeResult {near far : Codec} (same : far.mode = near.mode)
    (holds : far.mode = .legacy → far.types.HoldsValues)
    (held : near.mode = .legacy → near.types.HoldsValues) (value : Value) (ordered : value.Ordered)
    (admits : near.mode.AdmitsResult value) {bytes : Bytes}
    (encoded : near.encodeResult value = .ok bytes) (fits : bytes.length < 2 ^ 64) :
    far.decodeResult bytes = .ok value := by
  obtain ⟨mode, near⟩ := near
  obtain ⟨other, far⟩ := far
  obtain rfl : other = mode := same
  rw [← List.append_nil bytes]
  cases other with
  | legacy => exact decodeResult_compact [] (held rfl) (holds rfl) value ordered encoded fits
  | current =>
    exact (decodeResult_cbor near far [] value ordered encoded fits).trans (if_pos admits)

end Codec

end PluginBridge
