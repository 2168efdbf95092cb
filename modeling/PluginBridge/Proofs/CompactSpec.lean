import PluginBridge.Compact.Spec
import PluginBridge.Proofs.CompactValue

/-! Types and specifications in the compact encoding, read back. -/

namespace PluginBridge.Compact

open Reader

theorem length_writeTy_pos (ty : Ty) : 0 < (writeTy ty).length := by
  cases ty <;> simp [writeTy, varint_of_lt]

theorem length_le_writeTys (items : List Ty) : items.length ≤ (writeTys items).length :=
  length_le_of_cons (fun _ _ => rfl) length_writeTy_pos items

theorem length_le_writeAttributes (attributes : List (String × Ty)) :
    attributes.length ≤ (writeAttributes attributes).length :=
  length_le_of_members (fun _ _ => rfl) length_writeTy_pos attributes

/-- What stands behind a position takes less than the whole. -/
theorem nested_fits {kind depth : Nat} {bytes : Bytes}
    (fits : (varint kind ++ bytes).length < 2 ^ 64)
    (enough : (varint kind ++ bytes).length ≤ depth + 1) :
    bytes.length < 2 ^ 64 ∧ bytes.length ≤ depth := by
  have position := length_varint_pos kind
  rw [List.length_append] at fits enough
  omega

mutual

theorem reads_writeTy (ty : Ty) (fuel : Nat) (ordered : ty.Ordered)
    (fits : (writeTy ty).length < 2 ^ 64) (enough : (writeTy ty).length ≤ fuel) :
    (readTyWithin fuel).Reads (writeTy ty) ty := by
  have positive := length_writeTy_pos ty
  obtain ⟨depth, rfl⟩ : ∃ depth, fuel = depth + 1 := ⟨fuel - 1, by omega⟩
  unfold readTyWithin
  cases ty with
  | any => exact (reads_position 0 (by decide)).bind_pure rfl
  | bool => exact (reads_position 1 (by decide)).bind_pure rfl
  | number => exact (reads_position 2 (by decide)).bind_pure rfl
  | string => exact (reads_position 3 (by decide)).bind_pure rfl
  | list item =>
    obtain ⟨short, inside⟩ := nested_fits fits enough
    have nested := reads_writeTy item depth ordered short inside
    exact (reads_position 4 (by decide)).bind (nested.map _)
  | set item =>
    obtain ⟨short, inside⟩ := nested_fits fits enough
    have nested := reads_writeTy item depth ordered short inside
    exact (reads_position 5 (by decide)).bind (nested.map _)
  | map item =>
    obtain ⟨short, inside⟩ := nested_fits fits enough
    have nested := reads_writeTy item depth ordered short inside
    exact (reads_position 6 (by decide)).bind (nested.map _)
  | tuple items =>
    rw [writeTy, List.append_assoc] at *
    obtain ⟨counted, short, inside⟩ := counted_fits (length_le_writeTys items) fits enough
    have each := reads_writeTys items depth ordered short inside
    exact (reads_position 7 (by decide)).bind ((reads_counted counted each).map _)
  | object attributes =>
    rw [writeTy, List.append_assoc] at *
    obtain ⟨counted, short, inside⟩ :=
      counted_fits (length_le_writeAttributes attributes) fits enough
    have each := reads_writeAttributes attributes depth ordered.2 short inside
    have found := Fields.reads_ofList (reads_counted counted each) ordered.1 Ty.object
    exact (reads_position 8 (by decide)).bind found
termination_by structural ty

theorem reads_writeTys (items : List Ty) (depth : Nat) (ordered : Ty.OrderedItems items)
    (fits : (writeTys items).length < 2 ^ 64) (enough : (writeTys items).length ≤ depth) :
    ReadsEach (readTyWithin depth) items (writeTys items) := by
  cases items with
  | nil => exact .nil
  | cons item rest =>
    simp only [writeTys, List.length_append] at fits enough
    have first := reads_writeTy item depth ordered.1 (by omega) (by omega)
    have later := reads_writeTys rest depth ordered.2 (by omega) (by omega)
    exact .cons first later
termination_by structural items

theorem reads_writeAttributes (attributes : List (String × Ty)) (depth : Nat)
    (ordered : Ty.OrderedAttributes attributes) (fits : (writeAttributes attributes).length < 2 ^ 64)
    (enough : (writeAttributes attributes).length ≤ depth) :
    ReadsEach (readNamed (readTyWithin depth)) attributes (writeAttributes attributes) := by
  cases attributes with
  | nil => exact .nil
  | cons member rest =>
    obtain ⟨name, ty⟩ := member
    simp only [writeAttributes, List.length_append] at fits enough
    have first := reads_writeTy ty depth ordered.1 (by omega) (by omega)
    have later := reads_writeAttributes rest depth ordered.2 (by omega) (by omega)
    exact .cons (reads_named name (by omega) first) later
termination_by structural attributes

end

/-- A type in the compact encoding is read back, whatever follows it. -/
theorem roundTrips_ty (ty : Ty) (ordered : ty.Ordered) (fits : (writeTy ty).length < 2 ^ 64) :
    Form.ty.RoundTrips ty := by
  intro rest
  have found := reads_writeTy ty ((writeTy ty ++ rest).length + 1) ordered fits (by
    rw [List.length_append]
    omega)
  exact found rest

theorem length_writeSpec_pos (spec : Spec) : 0 < (writeSpec spec).length := by
  cases spec <;> simp [writeSpec, varint_of_lt]

theorem length_le_writeEntries (entries : List (String × Spec)) :
    entries.length ≤ (writeEntries entries).length :=
  length_le_of_members (fun _ _ => rfl) length_writeSpec_pos entries

mutual

theorem reads_writeSpec (spec : Spec) (fuel : Nat) (ordered : spec.Ordered)
    (fits : (writeSpec spec).length < 2 ^ 64) (enough : (writeSpec spec).length ≤ fuel) :
    (readSpecWithin fuel).Reads (writeSpec spec) spec := by
  have positive := length_writeSpec_pos spec
  obtain ⟨depth, rfl⟩ : ∃ depth, fuel = depth + 1 := ⟨fuel - 1, by omega⟩
  unfold readSpecWithin
  cases spec with
  | object entries =>
    rw [writeSpec, List.append_assoc] at *
    obtain ⟨counted, short, inside⟩ := counted_fits (length_le_writeEntries entries) fits enough
    have each := reads_writeEntries entries depth ordered.2 short inside
    have found := Fields.reads_ofList (reads_counted counted each) ordered.1 Spec.object
    exact (reads_position 0 (by decide)).bind found
  | attr name ty required =>
    simp only [writeSpec, List.append_assoc, List.length_append] at *
    apply (reads_position 1 (by decide)).bind
    apply (reads_text name (by omega)).bind
    apply Reads.bind (roundTrips_ty ty ordered (by omega))
    exact Reads.bind_pure (Form.roundTrips_bool required) rfl
  | block name nested required =>
    have position := length_varint_pos 2
    simp only [writeSpec, List.append_assoc, List.length_append] at *
    have inner := reads_writeSpec nested depth ordered (by omega) (by omega)
    apply (reads_position 2 (by decide)).bind
    apply (reads_text name (by omega)).bind
    apply inner.bind
    exact Reads.bind_pure (Form.roundTrips_bool required) rfl
  | blockList name nested least most =>
    have position := length_varint_pos 3
    simp only [writeSpec, List.append_assoc, List.length_append] at *
    have inner := reads_writeSpec nested depth ordered (by omega) (by omega)
    apply (reads_position 3 (by decide)).bind
    apply (reads_text name (by omega)).bind
    apply inner.bind
    apply Reads.bind (Form.roundTrips_word32 least)
    exact Reads.bind_pure (Form.roundTrips_word32 most) rfl
  | literal value =>
    simp only [writeSpec, List.length_append] at *
    exact (reads_position 4 (by decide)).bind
      (Reads.map (roundTrips_value value ordered (by omega)) Spec.literal)
  | fallback primary otherwise =>
    have position := length_varint_pos 5
    simp only [writeSpec, List.append_assoc, List.length_append] at *
    have first := reads_writeSpec primary depth ordered.1 (by omega) (by omega)
    have second := reads_writeSpec otherwise depth ordered.2 (by omega) (by omega)
    exact (reads_position 5 (by decide)).bind (first.bind (second.bind_pure rfl))
termination_by structural spec

theorem reads_writeEntries (entries : List (String × Spec)) (depth : Nat)
    (ordered : Spec.OrderedEntries entries) (fits : (writeEntries entries).length < 2 ^ 64)
    (enough : (writeEntries entries).length ≤ depth) :
    ReadsEach (readNamed (readSpecWithin depth)) entries (writeEntries entries) := by
  cases entries with
  | nil => exact .nil
  | cons entry rest =>
    obtain ⟨name, spec⟩ := entry
    simp only [writeEntries, List.length_append] at fits enough
    have first := reads_writeSpec spec depth ordered.1 (by omega) (by omega)
    have later := reads_writeEntries rest depth ordered.2 (by omega) (by omega)
    exact .cons (reads_named name (by omega) first) later
termination_by structural entries

end

theorem roundTrips_spec (spec : Spec) (ordered : spec.Ordered)
    (fits : (writeSpec spec).length < 2 ^ 64) : Form.spec.RoundTrips spec := by
  intro rest
  have found := reads_writeSpec spec ((writeSpec spec ++ rest).length + 1) ordered fits (by
    rw [List.length_append]
    omega)
  exact found rest

/-- The entries of an object, each read as a specification of its own. -/
theorem reads_entries (entries : List (String × Spec)) (ordered : Spec.OrderedEntries entries)
    (fits : (writeEntries entries).length < 2 ^ 64) :
    ReadsEach (readNamed readSpec) entries (writeEntries entries) := by
  induction entries with
  | nil => exact .nil
  | cons entry rest ih =>
    simp only [writeEntries, List.length_append] at fits
    have first := roundTrips_spec entry.2 ordered.1 (by omega)
    have later := ih ordered.2 (by omega)
    exact .cons (reads_named entry.1 (by omega) first) later

/-- Specifications by name in the compact encoding are read back, whatever follows them. -/
theorem roundTrips_objectSpec (spec : ObjectSpec) (ascending : Fields.Ascending spec)
    (ordered : Spec.OrderedEntries spec) (fits : (Form.objectSpec.write spec).length < 2 ^ 64) :
    Form.objectSpec.RoundTrips spec := by
  have atMost := length_le_writeEntries spec
  simp only [Form.objectSpec, List.length_append] at fits
  have found := reads_counted (by omega) (reads_entries spec ordered (by omega))
  exact Fields.reads_ofList found ascending id

end PluginBridge.Compact
