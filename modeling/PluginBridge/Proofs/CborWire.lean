import PluginBridge.Cbor.Wire
import PluginBridge.Proofs.CborValue

/-! Specification messages in the self-describing encoding, read back. The fields of a node come in
one order with the absent ones left out, so reading them is a fold over the fields that are there. -/

namespace PluginBridge

mutual

/-- Every literal inside is in order. -/
def WireSpec.Ordered : WireSpec → Prop
  | .node _ _ _ _ nested fallback _ _ literal entries =>
    OrderedNested nested ∧ OrderedNested fallback ∧ (∀ value ∈ literal, value.Ordered) ∧
      OrderedEntries entries

def WireSpec.OrderedNested : Option WireSpec → Prop
  | none => True
  | some spec => Ordered spec

def WireSpec.OrderedEntries : List (String × WireSpec) → Prop
  | [] => True
  | (_, spec) :: rest => Ordered spec ∧ OrderedEntries rest

end

namespace Cbor

open Reader

mutual

/-- The items that a reader enters to reach the innermost of a node: the node itself, then those of
the deepest of its fields. -/
def specDepth : WireSpec → Nat
  | .node _ _ _ _ nested fallback _ _ literal entries =>
    max (max (nestedDepth nested) (nestedDepth fallback))
      (max (literal.elim 0 valueDepth) (if entries = [] then 0 else entriesDepth entries + 1)) + 1

def nestedDepth : Option WireSpec → Nat
  | none => 0
  | some spec => specDepth spec

/-- Each entry is a map of its own. -/
def entriesDepth : List (String × WireSpec) → Nat
  | [] => 0
  | (_, spec) :: rest => max (specDepth spec + 1) (entriesDepth rest)

end

def documentDepth (document : WireDocument) : Nat :=
  entriesDepth document.root + 2

theorem specDepth_pos (spec : WireSpec) : 0 < specDepth spec := by
  cases spec
  exact Nat.succ_pos _

theorem nestedDepth_eq_elim (nested : Option WireSpec) :
    nestedDepth nested = nested.elim 0 specDepth := by
  cases nested <;> rfl

theorem elim_le_iff {α : Type} {a? : Option α} {weight : α → Nat} {depth : Nat} :
    a?.elim 0 weight ≤ depth ↔ ∀ a ∈ a?, weight a ≤ depth := by
  cases a? <;> simp

theorem writeNested_eq_map (nested : Option WireSpec) :
    writeNested nested = nested.map writeSpec := by
  cases nested <;> rfl

/-! ## Fields -/

theorem length_writeField_pos (name : String) (content : Bytes) :
    0 < (writeField name content).length := by
  have first := length_writeText_pos name
  simp only [writeField, List.length_append]
  omega

theorem length_optionalField (name : String) (content? : Option Bytes) :
    (optionalField name content?).1 ≤ (optionalField name content?).2.length := by
  cases content? with
  | none => exact Nat.le_refl 0
  | some content => exact length_writeField_pos name content

/-- The bytes begin with a header that stands for something. -/
def Present (bytes : Bytes) : Prop :=
  ∀ rest, ∃ found after, readHeader (bytes ++ rest) = .ok (found, after) ∧
    found ≠ .simple 22 ∧ found ≠ .simple 23

theorem present_header {bytes : Bytes} {found : Header} (more : Bytes)
    (reads : readHeader.Reads bytes found) (null : found ≠ .simple 22)
    (undefined : found ≠ .simple 23) : Present (bytes ++ more) := by
  intro rest
  rw [List.append_assoc]
  exact ⟨found, more ++ rest, reads (more ++ rest), null, undefined⟩

theorem present_map (count : Nat) (more : Bytes) (fits : count < 2 ^ 64) :
    Present (mapHeader count ++ more) :=
  present_header more (reads_header 5 count (.map (some count)) (by decide) fits fun _ => rfl)
    (by simp) (by simp)

theorem present_writeText (text : String) (fits : (writeText text).length < 2 ^ 64) :
    Present (writeText text) := by
  simp only [writeText, List.length_append] at fits
  have header := reads_header 3 (Text.utf8 text).length (.text (some (Text.utf8 text).length))
    (by decide) (by omega) fun _ => rfl
  exact present_header _ header (by simp) (by simp)

theorem present_writeValue (value : Value) : Present (writeValue value) := by
  cases value with
  | null => exact present_writeText "Null" (by decide)
  | _ =>
    simp only [writeValue, writeChoice, List.append_assoc]
    exact present_map 1 _ (by decide)

/-- What is there is read as it is. -/
theorem readOption_present {α : Type} (content : Reader Error α) {bytes : Bytes}
    (present : Present bytes) (rest : Bytes) :
    readOption content (bytes ++ rest) = (some <$> content) (bytes ++ rest) := by
  obtain ⟨found, after, header, null, undefined⟩ := present rest
  simp only [readOption, header]
  split
  next same => simp_all
  next same => simp_all
  next => rfl
  next failed => simp_all

theorem readsIff_some {α : Type} {content : Reader Error α} {bytes : Bytes} {a : α} {error : Error}
    {fine : Prop} (present : Present bytes) (settled : content.ReadsIff bytes a error fine) :
    (readOption content).ReadsIff bytes (some a) error fine where
  reads holds rest :=
    (readOption_present content present rest).trans ((settled.reads holds).map some rest)
  fails bad rest :=
    (readOption_present content present rest).trans ((settled.fails bad).map some rest)

theorem readsIff_once {α : Type} {seen : Option α} {content : Reader Error α} {bytes : Bytes}
    {a : α} {error : Error} {fine : Prop} (unseen : seen = none)
    (settled : content.ReadsIff bytes a error fine) :
    (once seen content).ReadsIff bytes (some a) error fine := by
  rw [unseen]
  exact settled.map some

section Folds

variable {σ : Type} {step : σ → Reader Error σ} {error : Error} {state middle final : σ}
  {bytes : Bytes}

theorem Folds.append {count more : Nat} {rest : Bytes} {here there : Prop}
    (first : Folds step error count state bytes middle here)
    (later : Folds step error more middle rest final there) :
    Folds step error (count + more) state (bytes ++ rest) final (here ∧ there) := by
  induction first with
  | stop => simpa only [Nat.zero_add, List.nil_append, true_and] using later
  | @next count _ _ _ _ _ _ _ settled _ ih =>
    rw [List.append_assoc, Nat.add_right_comm, and_assoc]
    exact .next settled (ih later)

theorem folds_field {fine : Prop} (settled : (step state).ReadsIff bytes final error fine) :
    Folds step error 1 state bytes final fine := by
  rw [← List.append_nil bytes]
  exact (Folds.next settled (.stop final)).congr (and_true fine).symm.to_iff

/-- A field that is absent leaves no bytes and no trace. -/
theorem folds_absent {fine : Prop} (same : state = final) (holds : fine) :
    Folds step error 0 state [] final fine := by
  subst same
  exact (Folds.stop state).congr (iff_true_intro holds)

end Folds

section TwoFields

variable {α β : Type} {a : α} {b : β} {readFirst : Reader Error α} {readSecond : Reader Error β}
  {left right : Bytes} {error : Error} {depth : Nat} {first second : String}

/-- A map of two fields, each read on from where the one before it has led. -/
theorem readsIff_readTwoFields_of {front back : Bytes} {middle : Option α × Option β}
    {here there : Prop} (filled : 0 < front.length) (more : 0 < back.length)
    (start : (readFieldOfTwo depth first second readFirst readSecond (none, none)).ReadsIff
      front middle error here)
    (finish : (readFieldOfTwo depth first second readFirst readSecond middle).ReadsIff
      back (some a, some b) error there) :
    (readTwoFields depth first second readFirst readSecond).ReadsIff
      (mapHeader 2 ++ front ++ back) (a, b) error (here ∧ there) := by
  have folds := (folds_field start).append (folds_field finish)
  rw [List.append_assoc]
  apply (reads_openMap 2 (by decide)).bind_iff
  apply (folds.forItems (by rw [List.length_append]; omega)).bind_pure
  rfl

/-- A map of two fields in their order. -/
theorem readsIff_readTwoFields {fine : Prop} (depth : Nat)
    (brief : (Text.utf8 first).length ≤ blockSize)
    (short : (Text.utf8 second).length ≤ blockSize)
    (distinct : Text.utf8 second ≠ Text.utf8 first) (one : readFirst.Reads left a)
    (two : readSecond.ReadsIff right b error fine) :
    (readTwoFields depth first second readFirst readSecond).ReadsIff
      (mapHeader 2 ++ writeField first left ++ writeField second right) (a, b) error fine := by
  have start : (readFieldOfTwo depth first second readFirst readSecond (none, none)).ReadsIff
      (writeField first left) (some a, none) error True := by
    apply (reads_name first brief).bind_iff
    rw [if_pos rfl]
    exact (readsIff_once rfl (one.always trivial)).bind_pure rfl
  have finish : (readFieldOfTwo depth first second readFirst readSecond (some a, none)).ReadsIff
      (writeField second right) (some a, some b) error fine := by
    apply (reads_name second short).bind_iff
    rw [if_neg distinct, if_pos rfl]
    exact (readsIff_once rfl two).bind_pure rfl
  have both := readsIff_readTwoFields_of (length_writeField_pos first left)
    (length_writeField_pos second right) start finish
  exact both.congr (true_and fine).symm.to_iff

/-- The same map with the second field in front. -/
theorem readsIff_readTwoFields_swapped {fine : Prop} (depth : Nat)
    (brief : (Text.utf8 first).length ≤ blockSize)
    (short : (Text.utf8 second).length ≤ blockSize)
    (distinct : Text.utf8 second ≠ Text.utf8 first) (one : readFirst.Reads left a)
    (two : readSecond.ReadsIff right b error fine) :
    (readTwoFields depth first second readFirst readSecond).ReadsIff
      (mapHeader 2 ++ writeField second right ++ writeField first left) (a, b) error fine := by
  have start : (readFieldOfTwo depth first second readFirst readSecond (none, none)).ReadsIff
      (writeField second right) (none, some b) error fine := by
    apply (reads_name second short).bind_iff
    rw [if_neg distinct, if_pos rfl]
    exact (readsIff_once rfl two).bind_pure rfl
  have finish : (readFieldOfTwo depth first second readFirst readSecond (none, some b)).ReadsIff
      (writeField first left) (some a, some b) error True := by
    apply (reads_name first brief).bind_iff
    rw [if_pos rfl]
    exact (readsIff_once rfl (one.always trivial)).bind_pure rfl
  have both := readsIff_readTwoFields_of (length_writeField_pos second right)
    (length_writeField_pos first left) start finish
  exact both.congr (and_true fine).symm.to_iff

end TwoFields

/-! ## Nodes -/

theorem optionalField_le_one (name : String) (content? : Option Bytes) :
    (optionalField name content?).1 ≤ 1 := by
  cases content? with
  | none => exact Nat.zero_le 1
  | some content => exact Nat.le_refl 1

def entriesContent (items : List (String × WireSpec)) : Option Bytes :=
  if items.length = 0 then none else some (arrayHeader items.length ++ writeEntries items)

/-- A node begins with the header of a map of its fields. -/
theorem writeSpec_front (spec : WireSpec) :
    ∃ count more, writeSpec spec = mapHeader count ++ more ∧ count < 2 ^ 64 := by
  cases spec with
  | node kind name typeExpression required nested fallback least most literal entries =>
    have names := optionalField_le_one "name" (name.map writeText)
    have types := optionalField_le_one "type_expr" (typeExpression.map writeText)
    have inner := optionalField_le_one "nested" (writeNested nested)
    have others := optionalField_le_one "fallback" (writeNested fallback)
    have literals := optionalField_le_one "literal" (literal.map writeValue)
    have attributes := optionalField_le_one "attrs" (entriesContent entries)
    unfold entriesContent at attributes
    simp only [writeSpec, List.append_assoc]
    exact ⟨_, _, rfl, by omega⟩

theorem present_writeSpec (spec : WireSpec) : Present (writeSpec spec) := by
  obtain ⟨count, more, written, few⟩ := writeSpec_front spec
  rw [written]
  exact present_map count more few

/-- A reader that may enter nothing stops before the fields of the node. -/
theorem fails_readSpecWithin (spec : WireSpec) :
    (readSpecWithin 0).Fails (writeSpec spec) .tooDeep := by
  obtain ⟨count, more, written, few⟩ := writeSpec_front spec
  unfold readSpecWithin
  rw [written]
  exact ((reads_openMap count few).bind_throw rfl).append more

section Node

variable {depth : Nat} {nested : Reader Error WireSpec}
  {entries : Reader Error (List (String × WireSpec))} {fields : SpecFields} {error : Error}

theorem readsIff_specField {name : String} {content : Bytes} {final : SpecFields} {fine : Prop}
    (short : (Text.utf8 name).length ≤ blockSize)
    (later : (readSpecContent depth nested entries fields (some name)).ReadsIff content final error
      fine) :
    (readSpecField depth nested entries fields).ReadsIff (writeField name content) final error
      fine := by
  apply (reads_name name short).bind_iff
  rw [Text.ofUtf8?_utf8]
  exact later

/-- A field that is read into a place that is still empty. -/
theorem readsIff_field {α : Type} (name : String) (keep : SpecFields → Option α → SpecFields)
    {seen : SpecFields → Option α} {content : Reader Error α} {bytes : Bytes} {a : α} {fine : Prop}
    (short : (Text.utf8 name).length ≤ blockSize)
    (reads : ∀ fields, readSpecContent depth nested entries fields (some name) = do
      let found ← once (seen fields) content
      pure (keep fields found))
    (unseen : seen fields = none) (settled : content.ReadsIff bytes a error fine) :
    (readSpecField depth nested entries fields).ReadsIff (writeField name bytes)
      (keep fields (some a)) error fine := by
  apply readsIff_specField short
  rw [reads]
  exact (readsIff_once unseen settled).bind_pure rfl

/-- A field that is written if there is something to write, and leaves no trace otherwise. -/
theorem folds_optionalField {α : Type} (name : String)
    (keep : SpecFields → Option (Option α) → SpecFields)
    {seen : SpecFields → Option (Option α)} {content : Reader Error α} {write : α → Bytes}
    {a? : Option α} {fine : α → Prop} (short : (Text.utf8 name).length ≤ blockSize)
    (reads : ∀ fields, readSpecContent depth nested entries fields (some name) = do
      let found ← once (seen fields) (readOption content)
      pure (keep fields found))
    (unseen : seen fields = none) (same : keep fields none = fields)
    (present : ∀ a ∈ a?, Present (write a))
    (settled : ∀ a ∈ a?, content.ReadsIff (write a) a error (fine a)) :
    Folds (readSpecField depth nested entries) error (optionalField name (a?.map write)).1 fields
      (optionalField name (a?.map write)).2 (keep fields (a?.map some)) (∀ a ∈ a?, fine a) := by
  cases a? with
  | none => exact folds_absent same.symm nofun
  | some a =>
    have found := readsIff_some (present a rfl) (settled a rfl)
    have folds := folds_field (readsIff_field name keep short reads unseen found)
    exact folds.congr (by simp)

/-- The entries are written if there are any. -/
theorem folds_entriesField (items : List (String × WireSpec)) (unseen : fields.entries = none)
    (settled : entries.ReadsIff (arrayHeader items.length ++ writeEntries items) items error
      (entriesDepth items < depth)) :
    Folds (readSpecField depth nested entries) error
      (optionalField "attrs" (entriesContent items)).1 fields
      (optionalField "attrs" (entriesContent items)).2
      { fields with entries := if items = [] then none else some items }
      ((if items = [] then 0 else entriesDepth items + 1) ≤ depth) := by
  cases items with
  | nil => exact folds_absent (by rw [if_pos rfl, ← unseen]) (Nat.zero_le depth)
  | cons item rest =>
    exact folds_field (readsIff_field "attrs" (fun fields entries => { fields with entries })
      (by decide) (fun _ => rfl) unseen settled)

/-- The fields of a node as they are written make the node again, unless one of them is too deep. -/
theorem folds_node (kind : UInt8) (name typeExpression : Option String) (required : Bool)
    (inner fallback : Option WireSpec) (least most : UInt32) (literal : Option Value)
    (items : List (String × WireSpec)) (nameFits : ∀ text ∈ name, (writeText text).length < 2 ^ 64)
    (typeFits : ∀ text ∈ typeExpression, (writeText text).length < 2 ^ 64)
    (settlesInner : ∀ spec ∈ inner,
      nested.ReadsIff (writeSpec spec) spec error (specDepth spec ≤ depth))
    (settlesFallback : ∀ spec ∈ fallback,
      nested.ReadsIff (writeSpec spec) spec error (specDepth spec ≤ depth))
    (settlesLiteral : ∀ value ∈ literal,
      (readValueWithin depth).ReadsIff (writeValue value) value error (valueDepth value ≤ depth))
    (settlesItems : entries.ReadsIff (arrayHeader items.length ++ writeEntries items) items error
      (entriesDepth items < depth)) :
    let node :=
      WireSpec.node kind name typeExpression required inner fallback least most literal items
    ∃ count bytes final,
      Folds (readSpecField depth nested entries) error count {} bytes final
        (specDepth node ≤ depth + 1) ∧
      writeSpec node = mapHeader count ++ bytes ∧ count ≤ bytes.length ∧ count < 2 ^ 64 ∧
      final.node = node := by
  intro node
  have kindReads : (readNat 255).ReadsIff (writeNat kind.toNat) kind.toNat error True := by
    have small := kind.toNat_lt
    exact (reads_writeNat kind.toNat 255 (by omega) (by omega)).always trivial
  have boundReads (bound : UInt32) :
      (readNat 0xffffffff).ReadsIff (writeNat bound.toNat) bound.toNat error True := by
    have small := bound.toNat_lt
    exact (reads_writeNat bound.toNat 0xffffffff (by omega) (by omega)).always trivial
  have textReads {text? : Option String} (fits : ∀ text ∈ text?, (writeText text).length < 2 ^ 64) :
      ∀ text ∈ text?, readText.ReadsIff (writeText text) text error True := fun text given =>
    (reads_writeText text (fits text given)).always trivial
  have begins : Folds (readSpecField depth nested entries) error 1 {} _ _ True :=
    folds_field (readsIff_field "kind" (fun fields kind => { fields with kind })
      (by decide) (fun _ => rfl) rfl kindReads)
  have folds := begins.append <|
    (folds_optionalField "name" (fun fields name => { fields with name }) (by decide)
      (fun _ => rfl) rfl rfl (fun text given => present_writeText text (nameFits text given))
      (textReads nameFits)).append <|
    (folds_optionalField "type_expr" (fun fields typeExpression => { fields with typeExpression })
      (by decide) (fun _ => rfl) rfl rfl
      (fun text given => present_writeText text (typeFits text given))
      (textReads typeFits)).append <|
    (folds_field (readsIff_field "required" (fun fields required => { fields with required })
      (by decide) (fun _ => rfl) rfl ((reads_writeBool required).always trivial))).append <|
    (folds_optionalField "nested" (fun fields nested => { fields with nested }) (by decide)
      (fun _ => rfl) rfl rfl (fun spec _ => present_writeSpec spec) settlesInner).append <|
    (folds_optionalField "fallback" (fun fields fallback => { fields with fallback }) (by decide)
      (fun _ => rfl) rfl rfl (fun spec _ => present_writeSpec spec) settlesFallback).append <|
    (folds_field (readsIff_field "min_items" (fun fields least => { fields with least })
      (by decide) (fun _ => rfl) rfl (boundReads least))).append <|
    (folds_field (readsIff_field "max_items" (fun fields most => { fields with most })
      (by decide) (fun _ => rfl) rfl (boundReads most))).append <|
    (folds_optionalField "literal" (fun fields literal => { fields with literal }) (by decide)
      (fun _ => rfl) rfl rfl (fun value _ => present_writeValue value) settlesLiteral).append <|
    folds_entriesField items rfl settlesItems
  refine ⟨_, _, _, folds.congr ?_, ?_, ?_, ?_, ?_⟩
  · simp only [node, specDepth, nestedDepth_eq_elim, Nat.succ_le_succ_iff, Nat.max_le, elim_le_iff,
      and_assoc, implies_true, true_and]
  · simp only [node, writeSpec, writeNested_eq_map, entriesContent, List.append_assoc]
    congr 2
    omega
  · have kinds := length_writeField_pos "kind" (writeNat kind.toNat)
    have needs := length_writeField_pos "required" (writeBool required)
    have minima := length_writeField_pos "min_items" (writeNat least.toNat)
    have maxima := length_writeField_pos "max_items" (writeNat most.toNat)
    have names := length_optionalField "name" (name.map writeText)
    have types := length_optionalField "type_expr" (typeExpression.map writeText)
    have inners := length_optionalField "nested" (inner.map writeSpec)
    have others := length_optionalField "fallback" (fallback.map writeSpec)
    have literals := length_optionalField "literal" (literal.map writeValue)
    have attributes := length_optionalField "attrs" (entriesContent items)
    simp only [List.length_append]
    omega
  · have names := optionalField_le_one "name" (name.map writeText)
    have types := optionalField_le_one "type_expr" (typeExpression.map writeText)
    have inners := optionalField_le_one "nested" (inner.map writeSpec)
    have others := optionalField_le_one "fallback" (fallback.map writeSpec)
    have literals := optionalField_le_one "literal" (literal.map writeValue)
    have attributes := optionalField_le_one "attrs" (entriesContent items)
    omega
  · have seen (α : Type) (a? : Option α) : (a?.map some).getD none = a? := by cases a? <;> rfl
    have kept : (if items = [] then none else some items).getD [] = items := by
      split
      next empty => exact empty.symm
      next => rfl
    simp only [node, SpecFields.node, Option.getD_some, seen, kept, UInt8.ofNat_toNat,
      UInt32.ofNat_toNat]

end Node

theorem length_content (name : String) {content : Bytes} {content? : Option Bytes}
    (given : content? = some content) :
    content.length ≤ (optionalField name content?).2.length := by
  rw [given]
  simp only [optionalField, writeField, List.length_append]
  omega

theorem length_writeEntries (entries : List (String × WireSpec)) :
    entries.length ≤ (writeEntries entries).length := by
  apply length_le_of_cons (fun _ _ => rfl)
  intro entry
  have first := length_writeField_pos "key" (writeText entry.1)
  simp only [List.length_append]
  omega

/-- An array header and as many entries, read by a reader that enters the array first. -/
theorem readsIff_readEntries {entries : List (String × WireSpec)} {bytes : Bytes} {nested : Nat}
    (depth : Nat) (short : bytes.length < 2 ^ 64) (atMost : entries.length ≤ bytes.length)
    (each : ∀ inner, ReadsEachIff (readEntryWithin inner) .tooDeep entries bytes
      (nested ≤ inner)) :
    (readEntriesWithin depth).ReadsIff (arrayHeader entries.length ++ bytes) entries .tooDeep
      (nested < depth) := by
  have header := reads_openArray entries.length (by omega)
  apply readsIff_entering depth (header.bind_throw rfl)
  intro inner
  exact header.bind_iff (readsIff_collect (each inner) atMost)

/-- A map with one entry, read by a reader that enters the map first. -/
theorem readsIff_readEntry {spec : WireSpec} (name : String) (depth : Nat)
    (fits : (writeText name).length < 2 ^ 64)
    (settled : ∀ inner, (readSpecWithin inner).ReadsIff (writeSpec spec) spec .tooDeep
      (specDepth spec ≤ inner)) :
    (readEntryWithin depth).ReadsIff
      (mapHeader 2 ++ writeField "key" (writeText name) ++ writeField "spec" (writeSpec spec))
      (name, spec) .tooDeep (specDepth spec + 1 ≤ depth) := by
  rw [List.append_assoc]
  apply readsIff_entering depth ((reads_openMap 2 (by decide)).bind_throw rfl)
  intro inner
  rw [← List.append_assoc]
  exact readsIff_readTwoFields inner (show (Text.utf8 "key").length ≤ blockSize by decide)
    (show (Text.utf8 "spec").length ≤ blockSize by decide) (by decide)
    (reads_writeText name fits) (settled inner)

/-- The content of a field of a node is no longer than the node. -/
theorem content_fits {kind : UInt8} {name typeExpression : Option String} {required : Bool}
    {inner fallback : Option WireSpec} {least most : UInt32} {literal : Option Value}
    {items : List (String × WireSpec)} {content : Bytes}
    (given : name.map writeText = some content ∨ typeExpression.map writeText = some content ∨
      writeNested inner = some content ∨ writeNested fallback = some content ∨
      literal.map writeValue = some content ∨ entriesContent items = some content)
    (fits : (writeSpec (.node kind name typeExpression required inner fallback least most literal
      items)).length < 2 ^ 64) : content.length < 2 ^ 64 := by
  unfold entriesContent at given
  simp only [writeSpec, List.length_append] at fits
  rcases given with names | types | inners | others | literals | attributes
  · have long := length_content "name" names
    omega
  · have long := length_content "type_expr" types
    omega
  · have long := length_content "nested" inners
    omega
  · have long := length_content "fallback" others
    omega
  · have long := length_content "literal" literals
    omega
  · have long := length_content "attrs" attributes
    omega

mutual

/-- A node is read if the reader may enter as many items as it nests, and is too deep otherwise. -/
theorem readsIff_writeSpec (spec : WireSpec) (budget : Nat) (ordered : spec.Ordered)
    (fits : (writeSpec spec).length < 2 ^ 64) :
    (readSpecWithin budget).ReadsIff (writeSpec spec) spec .tooDeep (specDepth spec ≤ budget) := by
  rcases budget with _ | depth
  · exact (fails_readSpecWithin spec).never (Nat.not_le.mpr (specDepth_pos spec))
  cases spec with
  | node kind name typeExpression required inner fallback least most literal items =>
    have nameFits : ∀ text ∈ name, (writeText text).length < 2 ^ 64 := fun text given =>
      content_fits (.inl (by rw [given, Option.map_some])) fits
    have typeFits : ∀ text ∈ typeExpression, (writeText text).length < 2 ^ 64 := fun text given =>
      content_fits (.inr (.inl (by rw [given, Option.map_some]))) fits
    have settlesInner := readsIff_writeNested inner depth ordered.1
      fun content given => content_fits (.inr (.inr (.inl given))) fits
    have settlesFallback := readsIff_writeNested fallback depth ordered.2.1
      fun content given => content_fits (.inr (.inr (.inr (.inl given)))) fits
    have settlesLiteral : ∀ value ∈ literal, (readValueWithin depth).ReadsIff
        (writeValue value) value .tooDeep (valueDepth value ≤ depth) := by
      intro value given
      have whole : literal.map writeValue = some (writeValue value) := by
        rw [given, Option.map_some]
      exact readsIff_writeValue value depth (ordered.2.2.1 value given)
        (content_fits (.inr (.inr (.inr (.inr (.inl whole))))) fits)
    have settlesItems : (readEntriesWithin depth).ReadsIff
        (arrayHeader items.length ++ writeEntries items) items .tooDeep
        (entriesDepth items < depth) := by
      have short : (writeEntries items).length < 2 ^ 64 := by
        rcases items with _ | ⟨item, rest⟩
        · decide
        · have long := content_fits (.inr (.inr (.inr (.inr (.inr rfl))))) fits
          rw [List.length_append] at long
          omega
      exact readsIff_readEntries depth short (length_writeEntries items) fun inner =>
        readsIff_writeEntries items inner ordered.2.2.2 short
    obtain ⟨count, bytes, final, folds, written, atMost, few, made⟩ := folds_node kind name
      typeExpression required inner fallback least most literal items nameFits typeFits settlesInner
      settlesFallback settlesLiteral settlesItems
    rw [written]
    unfold readSpecWithin
    apply (reads_openMap count few).bind_iff
    apply (folds.forItems atMost).bind_pure
    rw [made]
termination_by structural spec

theorem readsIff_writeNested (nested : Option WireSpec) (depth : Nat)
    (ordered : WireSpec.OrderedNested nested)
    (fits : ∀ content, writeNested nested = some content → content.length < 2 ^ 64) :
    ∀ spec ∈ nested, (readSpecWithin depth).ReadsIff (writeSpec spec) spec .tooDeep
      (specDepth spec ≤ depth) := by
  cases nested with
  | none => simp
  | some inner =>
    intro spec same
    rw [← Option.some.inj same]
    exact readsIff_writeSpec inner depth ordered (fits _ rfl)
termination_by structural nested

theorem readsIff_writeEntries (entries : List (String × WireSpec)) (depth : Nat)
    (ordered : WireSpec.OrderedEntries entries) (fits : (writeEntries entries).length < 2 ^ 64) :
    ReadsEachIff (readEntryWithin depth) .tooDeep entries (writeEntries entries)
      (entriesDepth entries ≤ depth) := by
  cases entries with
  | nil => exact ReadsEachIff.nil.congr (iff_true_intro (Nat.zero_le _))
  | cons member rest =>
    obtain ⟨name, spec⟩ := member
    simp only [writeEntries, writeField, List.length_append] at fits
    have first := readsIff_readEntry name depth (by omega) fun inner =>
      readsIff_writeSpec spec inner ordered.1 (by omega)
    have later := readsIff_writeEntries rest depth ordered.2 (by omega)
    exact (ReadsEachIff.cons first later).congr Nat.max_le
termination_by structural entries

end

/-- A document is read if all its items may be entered, and is too deep otherwise. -/
theorem readsIff_writeDocument (document : WireDocument)
    (ordered : WireSpec.OrderedEntries document.root)
    (fits : (writeDocument document).length < 2 ^ 64) :
    readDocument.ReadsIff (writeDocument document) document .tooDeep
      (documentDepth document ≤ depthLimit) := by
  obtain ⟨version, root⟩ := document
  have small := version.toNat_lt
  simp only [writeDocument, writeField, List.length_append] at fits
  have numbered := reads_writeNat version.toNat 0xffffffff (by omega) (by omega)
  have entries := readsIff_readEntries (depthLimit - 1) (by omega) (length_writeEntries root)
    fun inner => readsIff_writeEntries root inner ordered (by omega)
  have fields := readsIff_readTwoFields (depthLimit - 1)
    (show (Text.utf8 "version").length ≤ blockSize by decide)
    (show (Text.utf8 "root").length ≤ blockSize by decide) (by decide) numbered entries
  unfold readDocument
  have deepest :
      documentDepth ⟨version, root⟩ ≤ depthLimit ↔ entriesDepth root < depthLimit - 1 := by
    simp only [documentDepth, depthLimit]
    omega
  apply ReadsIff.congr _ deepest
  apply fields.bind_pure
  simp only [UInt32.ofNat_toNat]

/-- A value with its type expression is one item deeper than the value. -/
theorem readsIff_writeTyped (expression : String) (value : Value) (ordered : value.Ordered)
    (fits : (writeTyped expression value).length < 2 ^ 64) :
    readTyped.ReadsIff (writeTyped expression value) (expression, value) .tooDeep
      (valueDepth value + 1 ≤ depthLimit) := by
  simp only [writeTyped, writeField, List.length_append] at fits
  have typed := reads_writeText expression (by omega)
  have content := readsIff_writeValue value (depthLimit - 1) ordered (by omega)
  have fields := readsIff_readTwoFields (depthLimit - 1)
    (show (Text.utf8 "ty").length ≤ blockSize by decide)
    (show (Text.utf8 "value").length ≤ blockSize by decide) (by decide) typed content
  exact fields.congr Nat.succ_le_succ_iff

end Cbor

/-! ## Messages of ordered specifications -/

namespace WireSpec

mutual

theorem ordered_ofSpec (spec : Spec) (ordered : spec.Ordered) : (ofSpec spec).Ordered := by
  cases spec with
  | object entries => exact ⟨trivial, trivial, by simp, ordered_ofEntries entries ordered.2⟩
  | attr => exact ⟨trivial, trivial, by simp, trivial⟩
  | block name nested required =>
    exact ⟨ordered_ofSpec nested ordered, trivial, by simp, trivial⟩
  | blockList name nested least most =>
    exact ⟨ordered_ofSpec nested ordered, trivial, by simp, trivial⟩
  | literal value =>
    refine ⟨trivial, trivial, ?_, trivial⟩
    intro other same
    exact Option.some.inj same ▸ ordered
  | fallback primary otherwise =>
    exact ⟨ordered_ofSpec primary ordered.1, ordered_ofSpec otherwise ordered.2, by simp, trivial⟩
termination_by structural spec

theorem ordered_ofEntries (entries : List (String × Spec))
    (ordered : Spec.OrderedEntries entries) : OrderedEntries (ofEntries entries) := by
  cases entries with
  | nil => trivial
  | cons member rest =>
    obtain ⟨name, spec⟩ := member
    exact ⟨ordered_ofSpec spec ordered.1, ordered_ofEntries rest ordered.2⟩
termination_by structural entries

end

end WireSpec

end PluginBridge
