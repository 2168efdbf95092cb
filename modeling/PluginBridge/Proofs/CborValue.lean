import PluginBridge.Cbor.Value
import PluginBridge.Proofs.Cbor
import PluginBridge.Proofs.Fields

/-! Values in the self-describing encoding are read back by a reader that may enter as many items as
the value nests, and by no other. -/

namespace PluginBridge.Cbor

open Reader

mutual

/-- The items that a reader enters to reach the innermost of a value: one for the name of its kind,
and for a container one more and those of its deepest item. -/
def valueDepth : Value → Nat
  | .null => 1
  | .bool _ => 1
  | .number _ => 1
  | .string _ => 1
  | .list items => itemsDepth items + 2
  | .set items => itemsDepth items + 2
  | .tuple items => itemsDepth items + 2
  | .map members => membersDepth members + 2
  | .object members => membersDepth members + 2

def itemsDepth : List Value → Nat
  | [] => 0
  | item :: rest => max (valueDepth item) (itemsDepth rest)

def membersDepth : List (String × Value) → Nat
  | [] => 0
  | (_, value) :: rest => max (valueDepth value) (membersDepth rest)

end

theorem valueDepth_pos (value : Value) : 0 < valueDepth value := by
  cases value <;> simp [valueDepth]

theorem length_header_pos (major n : Nat) : 0 < (header major n).length := by
  unfold header
  split_ifs <;> simp

theorem length_writeText_pos (text : String) : 0 < (writeText text).length := by
  have first := length_header_pos 3 (Text.utf8 text).length
  simp only [writeText, List.length_append]
  omega

theorem length_writeChoice_pos (name : String) (content : Bytes) :
    0 < (writeChoice name content).length := by
  have first := length_header_pos 5 1
  simp only [writeChoice, mapHeader, List.length_append]
  omega

theorem length_writeValue_pos (value : Value) : 0 < (writeValue value).length := by
  cases value with
  | null => exact length_writeText_pos "Null"
  | _ => exact length_writeChoice_pos _ _

theorem length_le_writeItems (items : List Value) : items.length ≤ (writeItems items).length :=
  length_le_of_cons (fun _ _ => rfl) length_writeValue_pos items

theorem length_le_writeMembers (members : List (String × Value)) :
    members.length ≤ (writeMembers members).length :=
  length_le_of_members (fun _ _ => rfl) length_writeValue_pos members

theorem reads_kind (kind : Kind) : readKind.Reads (writeText kind.name) kind := by
  have short : (Text.utf8 kind.name).length ≤ blockSize := by cases kind <;> decide
  have found : (Kind.all.find? fun other => Text.utf8 other.name == Text.utf8 kind.name) =
      some kind := by cases kind <;> decide
  apply (reads_name kind.name short).bind_pure
  rw [found]

theorem reads_openChoice : openChoice.Reads (mapHeader 1) () := by
  intro rest
  have header := reads_header_map 1 (by decide) rest
  simp only [openChoice, header]

/-- The name alone stands for an alternative: the reader goes on with that name. -/
theorem openChoice_text (text : String) (fits : (Text.utf8 text).length < 2 ^ 64) (rest : Bytes) :
    openChoice (writeText text ++ rest) = .ok ((), writeText text ++ rest) := by
  have header := reads_header_text _ fits (Text.utf8 text ++ rest)
  simp only [openChoice, writeText, List.append_assoc, header]

/-- An alternative without content: the reader sees its name twice. -/
theorem reads_choice_alone {α : Type} {next : Kind → Reader Error α} {a : α} (kind : Kind)
    (later : next kind = pure a) :
    (do openChoice; next (← readKind)).Reads (writeText kind.name) a := by
  intro rest
  have short : (Text.utf8 kind.name).length < 2 ^ 64 := by cases kind <;> decide
  have named := (reads_kind kind).bind_pure later
  change (openChoice (writeText kind.name ++ rest) >>= fun opened =>
    (readKind >>= next) opened.2) = _
  rw [openChoice_text kind.name short rest]
  exact named rest

/-- An alternative with content: the reader goes on behind the name of its kind. -/
theorem readsIff_choice {α : Type} {next : Kind → Reader Error α} {content : Bytes} {a : α}
    {error : Error} {fine : Prop} (kind : Kind)
    (later : (next kind).ReadsIff content a error fine) :
    (do openChoice; next (← readKind)).ReadsIff (writeChoice kind.name content) a error fine := by
  rw [writeChoice, List.append_assoc]
  exact reads_openChoice.bind_iff ((reads_kind kind).bind_iff later)

/-- A reader that may enter nothing stops before the kind of the value. -/
theorem fails_readValueWithin (value : Value) :
    (readValueWithin 0).Fails (writeValue value) .tooDeep := by
  unfold readValueWithin
  cases value with
  | null =>
    intro rest
    change (openChoice (writeText "Null" ++ rest) >>= fun _ => Except.error Error.tooDeep) = _
    rw [openChoice_text "Null" (by decide) rest]
    rfl
  | _ =>
    simp only [writeValue, writeChoice, List.append_assoc]
    exact (reads_openChoice.bind_throw rfl).append _

/-- A reader that enters an item and reads on in it with one less to enter. -/
theorem readsIff_entering {α : Type} {reader : Nat → Reader Error α} {opening content : Bytes}
    {a : α} {error : Error} {nested : Nat} (depth : Nat) (outside : (reader 0).Fails opening error)
    (inside : ∀ inner,
      (reader (inner + 1)).ReadsIff (opening ++ content) a error (nested ≤ inner)) :
    (reader depth).ReadsIff (opening ++ content) a error (nested < depth) := by
  cases depth with
  | zero => exact (outside.append content).never (Nat.not_lt_zero nested)
  | succ inner => exact (inside inner).congr Nat.lt_succ_iff

/-- An array header and as many items, read by a reader that enters the array first. -/
theorem readsIff_readItems {items : List Value} {bytes : Bytes} {nested : Nat} (depth : Nat)
    (short : bytes.length < 2 ^ 64) (atMost : items.length ≤ bytes.length)
    (each : ∀ inner, ReadsEachIff (readValueWithin inner) .tooDeep items bytes (nested ≤ inner)) :
    (readItems depth).ReadsIff (arrayHeader items.length ++ bytes) items .tooDeep
      (nested < depth) := by
  have header := reads_openArray items.length (by omega)
  apply readsIff_entering depth (header.bind_throw rfl)
  intro inner
  exact header.bind_iff (readsIff_collect (each inner) atMost)

theorem readsIff_readMembers {members : List (String × Value)} {bytes : Bytes} {nested : Nat}
    (depth : Nat) (short : bytes.length < 2 ^ 64) (atMost : members.length ≤ bytes.length)
    (each : ∀ inner, ReadsEachIff
      (do let name ← readText; let value ← readValueWithin inner; pure (name, value)) .tooDeep
      members bytes (nested ≤ inner)) :
    (readMembers depth).ReadsIff (mapHeader members.length ++ bytes) members .tooDeep
      (nested < depth) := by
  have header := reads_openMap members.length (by omega)
  apply readsIff_entering depth (header.bind_throw rfl)
  intro inner
  exact header.bind_iff (readsIff_collect (each inner) atMost)

/-- The content of a container is within the limits of the whole. -/
theorem inside_fits {name : String} {opening content : Bytes}
    (fits : (writeChoice name (opening ++ content)).length < 2 ^ 64) :
    content.length < 2 ^ 64 := by
  simp only [writeChoice, List.length_append] at fits
  omega

/-- A container is entered behind the name of its kind, its items behind the container. -/
theorem container_le_iff (nested depth : Nat) : nested + 2 ≤ depth + 1 ↔ nested < depth := by
  omega

mutual

/-- A value is read if the reader may enter as many items as it nests, and is too deep otherwise. -/
theorem readsIff_writeValue (value : Value) (budget : Nat) (ordered : value.Ordered)
    (fits : (writeValue value).length < 2 ^ 64) :
    (readValueWithin budget).ReadsIff (writeValue value) value .tooDeep
      (valueDepth value ≤ budget) := by
  have positive := valueDepth_pos value
  rcases budget with _ | depth
  · exact (fails_readValueWithin value).never (by omega)
  have leaf : 1 ≤ depth + 1 := Nat.le_add_left 1 depth
  unfold readValueWithin
  cases value with
  | null =>
    apply Reads.always _ leaf
    exact reads_choice_alone .null rfl
  | bool truth => exact readsIff_choice .bool (((reads_writeBool truth).map _).always leaf)
  | number x => exact readsIff_choice .number (((reads_writeNumber x).map _).always leaf)
  | string text =>
    simp only [writeValue, writeChoice, List.length_append] at fits
    have found := reads_writeText text (by omega)
    exact readsIff_choice .string ((found.map _).always leaf)
  | list items =>
    have short := inside_fits fits
    have found := readsIff_readItems depth short (length_le_writeItems items) fun inner =>
      readsIff_writeItems items inner ordered short
    exact (readsIff_choice .list (found.map _)).congr (container_le_iff _ depth)
  | set items =>
    have short := inside_fits fits
    have found := readsIff_readItems depth short (length_le_writeItems items) fun inner =>
      readsIff_writeItems items inner ordered short
    exact (readsIff_choice .set (found.map _)).congr (container_le_iff _ depth)
  | tuple items =>
    have short := inside_fits fits
    have found := readsIff_readItems depth short (length_le_writeItems items) fun inner =>
      readsIff_writeItems items inner ordered short
    exact (readsIff_choice .tuple (found.map _)).congr (container_le_iff _ depth)
  | map members =>
    have short := inside_fits fits
    have found := readsIff_readMembers depth short (length_le_writeMembers members) fun inner =>
      readsIff_writeMembers members inner ordered.2 short
    have made := Fields.readsIff_ofList found ordered.1 Value.map
    exact (readsIff_choice .map made).congr (container_le_iff _ depth)
  | object members =>
    have short := inside_fits fits
    have found := readsIff_readMembers depth short (length_le_writeMembers members) fun inner =>
      readsIff_writeMembers members inner ordered.2 short
    have made := Fields.readsIff_ofList found ordered.1 Value.object
    exact (readsIff_choice .object made).congr (container_le_iff _ depth)
termination_by structural value

theorem readsIff_writeItems (items : List Value) (depth : Nat) (ordered : Value.OrderedItems items)
    (fits : (writeItems items).length < 2 ^ 64) :
    ReadsEachIff (readValueWithin depth) .tooDeep items (writeItems items)
      (itemsDepth items ≤ depth) := by
  cases items with
  | nil => exact ReadsEachIff.nil.congr (iff_true_intro (Nat.zero_le _))
  | cons item rest =>
    simp only [writeItems, List.length_append] at fits
    have first := readsIff_writeValue item depth ordered.1 (by omega)
    have later := readsIff_writeItems rest depth ordered.2 (by omega)
    exact (ReadsEachIff.cons first later).congr Nat.max_le
termination_by structural items

theorem readsIff_writeMembers (members : List (String × Value)) (depth : Nat)
    (ordered : Value.OrderedMembers members) (fits : (writeMembers members).length < 2 ^ 64) :
    ReadsEachIff (do let name ← readText; let value ← readValueWithin depth; pure (name, value))
      .tooDeep members (writeMembers members) (membersDepth members ≤ depth) := by
  cases members with
  | nil => exact ReadsEachIff.nil.congr (iff_true_intro (Nat.zero_le _))
  | cons member rest =>
    obtain ⟨name, value⟩ := member
    simp only [writeMembers, List.length_append] at fits
    have named := reads_writeText name (by omega)
    have first := readsIff_writeValue value depth ordered.1 (by omega)
    have later := readsIff_writeMembers rest depth ordered.2 (by omega)
    refine (ReadsEachIff.cons ?_ later).congr Nat.max_le
    exact named.bind_iff (first.bind_pure rfl)
termination_by structural members

end

end PluginBridge.Cbor
