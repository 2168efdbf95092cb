import PluginBridge.Compact.Value
import PluginBridge.Proofs.Compact
import PluginBridge.Proofs.Fields

/-! Values in the compact encoding, read back. The fuel of the reader is spent on nesting only, and a
value takes at least a byte, so the bytes of a value are fuel enough for it. -/

namespace PluginBridge.Compact

open Reader

theorem length_writeValue_pos (value : Value) : 0 < (writeValue value).length := by
  cases value <;> simp [writeValue, varint_of_lt]

theorem length_le_writeItems (items : List Value) : items.length ≤ (writeItems items).length :=
  length_le_of_cons (fun _ _ => rfl) length_writeValue_pos items

theorem length_le_writeMembers (members : List (String × Value)) :
    members.length ≤ (writeMembers members).length :=
  length_le_of_members (fun _ _ => rfl) length_writeValue_pos members

theorem length_le_write_text (name : String) :
    (Text.utf8 name).length ≤ (Form.text.write name).length := by
  simp only [Form.text, Form.bytes, List.length_append]
  omega

theorem reads_text (name : String) (fits : (Form.text.write name).length < 2 ^ 64) :
    Form.text.read.Reads (Form.text.write name) name :=
  Form.roundTrips_text name (Nat.lt_of_le_of_lt (length_le_write_text name) fits)

theorem reads_named {α : Type} {content : Reader Error α} {bytes : Bytes} {a : α} (name : String)
    (fits : (Form.text.write name).length < 2 ^ 64) (reads : content.Reads bytes a) :
    (readNamed content).Reads (Form.text.write name ++ bytes) (name, a) :=
  (reads_text name fits).bind (reads.bind_pure rfl)

/-- What is counted takes less than the whole, whose position and count take a byte each. -/
theorem counted_fits {kind count depth : Nat} {bytes : Bytes} (atMost : count ≤ bytes.length)
    (fits : (varint kind ++ (varint count ++ bytes)).length < 2 ^ 64)
    (enough : (varint kind ++ (varint count ++ bytes)).length ≤ depth + 1) :
    count < 2 ^ 64 ∧ bytes.length < 2 ^ 64 ∧ bytes.length ≤ depth := by
  have position := length_varint_pos kind
  simp only [List.length_append] at fits enough
  omega

/-- A count and as many items. -/
theorem reads_counted {α : Type} {item : Reader Error α} {bytes : Bytes} {items : List α}
    (fits : items.length < 2 ^ 64) (each : ReadsEach item items bytes) :
    (readCounted item).Reads (varint items.length ++ bytes) items :=
  Reads.bind (Form.roundTrips_size _ fits) each.exactly

mutual

theorem reads_writeValue (value : Value) (fuel : Nat) (ordered : value.Ordered)
    (fits : (writeValue value).length < 2 ^ 64) (enough : (writeValue value).length ≤ fuel) :
    (readValueWithin fuel).Reads (writeValue value) value := by
  have positive := length_writeValue_pos value
  obtain ⟨depth, rfl⟩ : ∃ depth, fuel = depth + 1 := ⟨fuel - 1, by omega⟩
  unfold readValueWithin
  cases value with
  | null => exact (reads_position 0 (by decide)).bind_pure rfl
  | bool truth =>
    exact (reads_position 1 (by decide)).bind (Reads.map (Form.roundTrips_bool truth) _)
  | number x =>
    exact (reads_position 2 (by decide)).bind (Reads.map (Form.roundTrips_number x) _)
  | string text =>
    simp only [writeValue, List.length_append] at fits
    exact (reads_position 3 (by decide)).bind ((reads_text text (by omega)).map _)
  | list items =>
    rw [writeValue, List.append_assoc] at *
    obtain ⟨counted, short, inside⟩ := counted_fits (length_le_writeItems items) fits enough
    have each := reads_writeItems items depth ordered short inside
    exact (reads_position 4 (by decide)).bind ((reads_counted counted each).map _)
  | set items =>
    rw [writeValue, List.append_assoc] at *
    obtain ⟨counted, short, inside⟩ := counted_fits (length_le_writeItems items) fits enough
    have each := reads_writeItems items depth ordered short inside
    exact (reads_position 5 (by decide)).bind ((reads_counted counted each).map _)
  | tuple items =>
    rw [writeValue, List.append_assoc] at *
    obtain ⟨counted, short, inside⟩ := counted_fits (length_le_writeItems items) fits enough
    have each := reads_writeItems items depth ordered short inside
    exact (reads_position 6 (by decide)).bind ((reads_counted counted each).map _)
  | map members =>
    rw [writeValue, List.append_assoc] at *
    obtain ⟨counted, short, inside⟩ := counted_fits (length_le_writeMembers members) fits enough
    have each := reads_writeMembers members depth ordered.2 short inside
    have found := Fields.reads_ofList (reads_counted counted each) ordered.1 Value.map
    exact (reads_position 7 (by decide)).bind found
  | object members =>
    rw [writeValue, List.append_assoc] at *
    obtain ⟨counted, short, inside⟩ := counted_fits (length_le_writeMembers members) fits enough
    have each := reads_writeMembers members depth ordered.2 short inside
    have found := Fields.reads_ofList (reads_counted counted each) ordered.1 Value.object
    exact (reads_position 8 (by decide)).bind found
termination_by structural value

/-- The items of a container, one behind the other. -/
theorem reads_writeItems (items : List Value) (depth : Nat) (ordered : Value.OrderedItems items)
    (fits : (writeItems items).length < 2 ^ 64) (enough : (writeItems items).length ≤ depth) :
    ReadsEach (readValueWithin depth) items (writeItems items) := by
  cases items with
  | nil => exact .nil
  | cons item rest =>
    simp only [writeItems, List.length_append] at fits enough
    have first := reads_writeValue item depth ordered.1 (by omega) (by omega)
    have later := reads_writeItems rest depth ordered.2 (by omega) (by omega)
    exact .cons first later
termination_by structural items

theorem reads_writeMembers (members : List (String × Value)) (depth : Nat)
    (ordered : Value.OrderedMembers members) (fits : (writeMembers members).length < 2 ^ 64)
    (enough : (writeMembers members).length ≤ depth) :
    ReadsEach (readNamed (readValueWithin depth)) members (writeMembers members) := by
  cases members with
  | nil => exact .nil
  | cons member rest =>
    obtain ⟨name, value⟩ := member
    simp only [writeMembers, List.length_append] at fits enough
    have first := reads_writeValue value depth ordered.1 (by omega) (by omega)
    have later := reads_writeMembers rest depth ordered.2 (by omega) (by omega)
    exact .cons (reads_named name (by omega) first) later
termination_by structural members

end

/-- A value in the compact encoding is read back, whatever follows it. -/
theorem roundTrips_value (value : Value) (ordered : value.Ordered)
    (fits : (writeValue value).length < 2 ^ 64) : Form.value.RoundTrips value := by
  intro rest
  have found := reads_writeValue value ((writeValue value ++ rest).length + 1) ordered fits (by
    rw [List.length_append]
    omega)
  exact found rest

end PluginBridge.Compact
