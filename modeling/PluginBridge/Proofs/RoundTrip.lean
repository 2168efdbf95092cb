import PluginBridge.Proofs.Codec

/-! Decoding what was encoded, in front of any bytes. The compact mode gives back every value, result
and specification. The self-describing mode gives them back exactly as far as its reader enters
nested items, and beyond that fails for their depth, never with anything else. The lengths of all
encodings are machine words, as those of all sequences in memory. -/

namespace PluginBridge.Codec

/-- In the compact mode everything is read back: values, specifications, and, if values are
registered on both sides, results. -/
theorem legacy_reads_back (near far : TypeRegistry) (held : near.HoldsValues)
    (holds : far.HoldsValues) (rest : Bytes) :
    (∀ value : Value, value.Ordered → ((mk .legacy near).encodeValue value).length < 2 ^ 64 →
      (mk .legacy far).decodeValue ((mk .legacy near).encodeValue value ++ rest) = .ok value) ∧
    (∀ spec : ObjectSpec, Fields.Ascending spec → Spec.OrderedEntries spec →
      ((mk .legacy near).encodeSpec spec).length < 2 ^ 64 →
      (mk .legacy far).decodeSpec ((mk .legacy near).encodeSpec spec ++ rest) = .ok spec) ∧
    (∀ value : Value, value.Ordered → ∃ bytes, (mk .legacy near).encodeResult value = .ok bytes ∧
      (bytes.length < 2 ^ 64 → (mk .legacy far).decodeResult (bytes ++ rest) = .ok value)) := by
  refine ⟨decodeValue_compact near far rest, decodeSpec_compact near far rest, ?_⟩
  intro value ordered
  have encoded := encodeResult_compact held value
  exact ⟨_, encoded, decodeResult_compact rest held holds value ordered encoded⟩

/-- In the self-describing mode everything is read back that nests at most as many items as the
reader may enter, a result counting one item more than its value; all else is too deep. -/
theorem current_reads_back_iff_shallow (near far : TypeRegistry) (rest : Bytes) :
    (∀ value : Value, value.Ordered → ((mk .current near).encodeValue value).length < 2 ^ 64 →
      (mk .current far).decodeValue ((mk .current near).encodeValue value ++ rest) =
        if Cbor.valueDepth value ≤ Cbor.depthLimit then .ok value else .error (.cbor .tooDeep)) ∧
    (∀ spec : ObjectSpec, Fields.Ascending spec → Spec.OrderedEntries spec →
      ((mk .current near).encodeSpec spec).length < 2 ^ 64 →
      (mk .current far).decodeSpec ((mk .current near).encodeSpec spec ++ rest) =
        if Cbor.documentDepth (.ofSpec spec) ≤ Cbor.depthLimit then .ok spec
        else .error (.cbor .tooDeep)) ∧
    (∀ value : Value, value.Ordered → ∃ bytes, (mk .current near).encodeResult value = .ok bytes ∧
      (bytes.length < 2 ^ 64 → (mk .current far).decodeResult (bytes ++ rest) =
        if Cbor.valueDepth value + 1 ≤ Cbor.depthLimit then .ok value
        else .error (.cbor .tooDeep))) := by
  refine ⟨decodeValue_cbor near far rest, decodeSpec_cbor near far rest, ?_⟩
  intro value ordered
  exact ⟨_, rfl, decodeResult_cbor near far rest value ordered rfl⟩

section Example

/-- A value with every kind inside: repeated items of a set that are no numbers, empty containers and
names that need quotes. -/
def motley : Value :=
  .object [("", .set [.number ⟨0x7ff8000000000000⟩, .number ⟨0x7ff8000000000000⟩, .bool true]),
    ("\"", .map [("k", .tuple [.list [], .null])]), ("é", .string "\\ ")]

def motleySpec : ObjectSpec :=
  [("a", .block "b" (.object [("", .attr "" (.object [("a b", .list .any)]) true)]) false),
    ("d", .fallback (.blockList "c" (.literal motley) 0 4294967295) (.literal .null))]

theorem motley_ordered : motley.Ordered := by
  simp only [motley, Value.Ordered, Value.OrderedMembers, Value.OrderedItems]
  decide

theorem motleySpec_ordered : Spec.OrderedEntries motleySpec := by
  have literal := motley_ordered
  simp only [motleySpec, Spec.OrderedEntries, Spec.Ordered, Ty.Ordered, Ty.OrderedAttributes,
    Value.Ordered, literal]
  decide

theorem length_result_motley :
    (TypeRegistry.blob.write
      (TypeRegistry.valueName, Compact.writeValue motley)).length < 2 ^ 64 := by
  decide

theorem legacy_reads_back_motley :
    (ofMode .legacy).decodeValue ((ofMode .legacy).encodeValue motley ++ [0xff]) = .ok motley ∧
    (ofMode .legacy).decodeSpec ((ofMode .legacy).encodeSpec motleySpec ++ [0xff]) =
      .ok motleySpec ∧
    ∃ bytes, (ofMode .legacy).encodeResult motley = .ok bytes ∧
      (ofMode .legacy).decodeResult (bytes ++ [0xff]) = .ok motley := by
  have holds := TypeRegistry.holdsValues_registerBuiltin .empty
  obtain ⟨values, specs, results⟩ := legacy_reads_back .builtin .builtin holds holds [0xff]
  obtain ⟨bytes, encoded, back⟩ := results motley motley_ordered
  have written := Except.ok.inj (encoded.symm.trans (encodeResult_compact holds motley))
  exact ⟨values motley motley_ordered (by decide),
    specs motleySpec (by decide) motleySpec_ordered (by decide), bytes, encoded,
    back (written ▸ length_result_motley)⟩

def nest : Nat → Value
  | 0 => .null
  | lists + 1 => .list [nest lists]

theorem nest_ordered (lists : Nat) : (nest lists).Ordered := by
  induction lists with
  | zero => trivial
  | succ lists ih => exact ⟨ih, trivial⟩

theorem valueDepth_nest (lists : Nat) : Cbor.valueDepth (nest lists) = 2 * lists + 1 := by
  induction lists with
  | zero => rfl
  | succ lists ih =>
    simp only [nest, Cbor.valueDepth, Cbor.itemsDepth, ih]
    omega

theorem length_writeValue_nest (lists : Nat) :
    (Cbor.writeValue (nest lists)).length = 7 * lists + 5 := by
  induction lists with
  | zero => decide
  | succ lists ih =>
    have map : (Cbor.mapHeader 1).length = 1 := by decide
    have tag : (Cbor.writeText "List").length = 5 := by decide
    have array : (Cbor.arrayHeader 1).length = 1 := by decide
    simp only [nest, Cbor.writeValue, Cbor.writeItems, Cbor.writeChoice, List.append_nil,
      List.length_append, List.length_singleton, map, tag, array, ih]
    omega

/-- Of lists inside each other 127 come back, and 128 are too deep. -/
theorem current_reads_back_motley :
    (ofMode .current).decodeSpec ((ofMode .current).encodeSpec motleySpec ++ [0xff]) =
      .ok motleySpec ∧
    (∃ bytes, (ofMode .current).encodeResult motley = .ok bytes ∧
      (ofMode .current).decodeResult (bytes ++ [0xff]) = .ok motley) ∧
    (ofMode .current).decodeValue ((ofMode .current).encodeValue (nest 127) ++ [0xff]) =
      .ok (nest 127) ∧
    (ofMode .current).decodeValue ((ofMode .current).encodeValue (nest 128) ++ [0xff]) =
      .error (.cbor .tooDeep) := by
  obtain ⟨values, specs, results⟩ := current_reads_back_iff_shallow .builtin .builtin [0xff]
  have fits (lists : Nat) (few : lists ≤ 128) :
      ((ofMode .current).encodeValue (nest lists)).length < 2 ^ 64 := by
    have length : ((ofMode .current).encodeValue (nest lists)).length = 7 * lists + 5 :=
      length_writeValue_nest lists
    omega
  obtain ⟨bytes, encoded, back⟩ := results motley motley_ordered
  have short : bytes.length < 2 ^ 64 := by
    rw [← Except.ok.inj encoded]
    decide +kernel
  have few : ((ofMode .current).encodeSpec motleySpec).length < 2 ^ 64 := by decide +kernel
  refine ⟨(specs motleySpec (by decide) motleySpec_ordered few).trans (if_pos (by decide)),
    ⟨bytes, encoded, (back short).trans (if_pos (by decide))⟩,
    (values (nest 127) (nest_ordered 127) (fits 127 (by decide))).trans (if_pos ?_),
    (values (nest 128) (nest_ordered 128) (fits 128 (by decide))).trans (if_neg ?_)⟩
  · rw [valueDepth_nest]
    decide
  · rw [valueDepth_nest]
    decide

end Example

end PluginBridge.Codec
