import Mathlib.Data.List.Forall2
import Mathlib.Tactic.IntervalCases
import PluginBridge.Proofs.Sequences
import PluginBridge.Proofs.TypeOrder
import PluginBridge.Proofs.Wire

/-! Which specification messages describe a specification, and which one. A message is accepted if
every node that is reached through fields that are used is complete; the fields that the kind of a
node ignores may hold anything. -/

namespace PluginBridge

namespace WireSpec

/-- The nodes inside a node that its kind uses. -/
def children : WireSpec → List WireSpec
  | .node kind _ _ _ nested fallback _ _ _ entries =>
    match WireKind.ofNumber? kind with
    | some .object => entries.map (·.2)
    | some .block | some .blockList => nested.toList
    | some .fallback => nested.toList ++ fallback.toList
    | some .attr | some .literal | none => []

/-- The node has one of the six kinds and the fields that its kind needs. -/
def Complete : WireSpec → Prop
  | .node kind name expression _ nested fallback _ _ literal _ =>
    (1 ≤ kind ∧ kind ≤ 6) ∧
    match WireKind.ofNumber? kind with
    | some .attr => name.isSome ∧ ∃ text ∈ expression, ∃ ty, Ty.parse text = .ok ty
    | some .block | some .blockList => name.isSome ∧ nested.isSome
    | some .literal => literal.isSome
    | some .fallback => nested.isSome ∧ fallback.isSome
    | some .object | none => True

/-- The nodes that are reached from a node through fields that are used. -/
inductive Reaches (node : WireSpec) : WireSpec → Prop where
  | self : Reaches node node
  | child {middle last : WireSpec} (reached : Reaches node middle) (used : last ∈ middle.children) :
      Reaches node last

mutual

/-- The node with every field that its kind ignores left out, at every depth. -/
def used : WireSpec → WireSpec
  | .node kind name expression required nested fallback least most literal entries =>
    match WireKind.ofNumber? kind with
    | some .object => .node kind none none false none none 0 0 none (usedEntries entries)
    | some .attr => .node kind name expression required none none 0 0 none []
    | some .block => .node kind name none required (usedNested nested) none 0 0 none []
    | some .blockList => .node kind name none false (usedNested nested) none least most none []
    | some .literal => .node kind none none false none none 0 0 literal []
    | some .fallback =>
      .node kind none none false (usedNested nested) (usedNested fallback) 0 0 none []
    | none => .node kind none none false none none 0 0 none []

def usedNested : Option WireSpec → Option WireSpec
  | none => none
  | some spec => some (used spec)

def usedEntries : List (String × WireSpec) → List (String × WireSpec)
  | [] => []
  | (name, spec) :: rest => (name, used spec) :: usedEntries rest

end

/-! ## One node -/

theorem ofNumber?_eq_none_iff {kind : UInt8} :
    WireKind.ofNumber? kind = none ↔ ¬ (1 ≤ kind ∧ kind ≤ 6) := by
  constructor
  · rintro unknown ⟨above, below⟩
    have low : 1 ≤ kind.toNat := above
    have high : kind.toNat ≤ 6 := below
    rw [← UInt8.ofNat_toNat (x := kind)] at unknown
    interval_cases kind.toNat <;> cases unknown
  · intro outside
    unfold WireKind.ofNumber?
    split <;> first | rfl | exact absurd (by decide) outside

theorem toEntries_ok_iff {entries : List (String × WireSpec)} {specs : List (String × Spec)} :
    toEntries entries = .ok specs ↔
      List.Forall₂ (fun entry spec => entry.1 = spec.1 ∧ toSpec entry.2 = .ok spec.2)
        entries specs := by
  induction entries generalizing specs with
  | nil =>
    rw [toEntries, List.forall₂_nil_left_iff]
    exact ⟨fun same => (Except.ok.inj same).symm, fun same => congrArg Except.ok same.symm⟩
  | cons entry rest ih =>
    obtain ⟨name, node⟩ := entry
    rw [toEntries, bind_eq_ok]
    constructor
    · rintro ⟨spec, first, later⟩
      obtain ⟨others, behind, made⟩ := bind_eq_ok.mp later
      cases made
      exact .cons ⟨rfl, first⟩ (ih.mp behind)
    · rintro (_ | ⟨⟨rfl, first⟩, behind⟩)
      exact ⟨_, first, bind_eq_ok.mpr ⟨_, ih.mpr behind, rfl⟩⟩

/-- A computation gives a result exactly if its parts do. -/
theorem exists_bind_iff {ε α β : Type} {first : Except ε α} {next : α → Except ε β} :
    (∃ b, (first >>= next) = .ok b) ↔ ∃ a, first = .ok a ∧ ∃ b, next a = .ok b := by
  simp only [bind_eq_ok]
  exact ⟨fun ⟨b, a, made, later⟩ => ⟨a, made, b, later⟩,
    fun ⟨a, made, b, later⟩ => ⟨b, a, made, later⟩⟩

theorem exists_ok_eq {ε α : Type} (a : α) : ∃ b, (.ok a : Except ε α) = .ok b :=
  ⟨a, rfl⟩

theorem exists_need_iff {α : Type} {kind : WireKind} {field : WireField} {a? : Option α} :
    (∃ a, need kind field a? = .ok a) ↔ a?.isSome := by
  cases a? <;> simp [need]

theorem exists_toNested_iff {kind : WireKind} {field : WireField} {nested : Option WireSpec} :
    (∃ spec, toNested kind field nested = .ok spec) ↔
      nested.isSome ∧ ∀ node ∈ nested.toList, ∃ spec, toSpec node = .ok spec := by
  cases nested <;> simp [toNested]

theorem parseTy_eq_ok {expression : String} {ty : Ty} :
    parseTy expression = .ok ty ↔ Ty.parse expression = .ok ty := by
  unfold parseTy
  cases Ty.parse expression <;> simp [Except.mapError]

theorem exists_toEntries_iff {entries : List (String × WireSpec)} :
    (∃ specs, toEntries entries = .ok specs) ↔
      ∀ entry ∈ entries, ∃ spec, toSpec entry.2 = .ok spec := by
  induction entries with
  | nil => simp [toEntries]
  | cons entry rest ih =>
    obtain ⟨name, node⟩ := entry
    simp only [toEntries, exists_bind_iff, exists_ok_eq, exists_and_right, and_true, ih,
      List.forall_mem_cons]

/-- A node is read exactly if it is complete and the nodes that it uses are read. -/
theorem exists_toSpec_iff (node : WireSpec) :
    (∃ spec, toSpec node = .ok spec) ↔
      node.Complete ∧ ∀ child ∈ node.children, ∃ spec, toSpec child = .ok spec := by
  obtain ⟨kind, name, expression, required, nested, fallback, least, most, literal, entries⟩ := node
  cases known : WireKind.ofNumber? kind with
  | none =>
    simp [toSpec, Complete, known, ofNumber?_eq_none_iff.mp known]
  | some found =>
    have inRange : 1 ≤ kind ∧ kind ≤ 6 := by
      by_contra outside
      cases (ofNumber?_eq_none_iff.mpr outside).symm.trans known
    cases found with
    | object =>
      simp only [toSpec, Complete, children, known, inRange, exists_bind_iff, exists_ok_eq, and_true,
        exists_toEntries_iff, List.forall_mem_map, true_and]
    | attr =>
      simp only [toSpec, Complete, children, known, inRange, exists_bind_iff, exists_ok_eq,
        exists_and_right, and_true, exists_need_iff, parseTy_eq_ok]
      cases expression <;> simp [need]
    | block =>
      simp only [toSpec, Complete, children, known, inRange, exists_bind_iff, exists_ok_eq,
        exists_and_right, and_true, true_and, exists_need_iff, exists_toNested_iff, and_assoc]
    | blockList =>
      simp only [toSpec, Complete, children, known, inRange, exists_bind_iff, exists_ok_eq,
        exists_and_right, and_true, true_and, exists_need_iff, exists_toNested_iff, and_assoc]
    | literal =>
      simp [toSpec, Complete, children, known, inRange, exists_bind_iff, exists_need_iff]
    | fallback =>
      simp only [toSpec, Complete, children, known, inRange, exists_bind_iff, exists_ok_eq,
        exists_and_right, and_true, true_and, exists_toNested_iff, List.forall_mem_append]
      exact and_and_and_comm

/-! ## All nodes -/

theorem mem_of_mem_children {child : WireSpec} {kind : UInt8} {name expression : Option String}
    {required : Bool} {nested fallback : Option WireSpec} {least most : UInt32}
    {literal : Option Value} {entries : List (String × WireSpec)}
    (used : child ∈ children (.node kind name expression required nested fallback least most literal
      entries)) :
    (∃ name, (name, child) ∈ entries) ∨ nested = some child ∨ fallback = some child := by
  dsimp only [children] at used
  split at used
  next =>
    obtain ⟨⟨name, _⟩, inside, rfl⟩ := List.mem_map.mp used
    exact .inl ⟨name, inside⟩
  next => exact .inr (.inl (Option.mem_toList.mp used))
  next => exact .inr (.inl (Option.mem_toList.mp used))
  next =>
    rcases List.mem_append.mp used with first | second
    · exact .inr (.inl (Option.mem_toList.mp first))
    · exact .inr (.inr (Option.mem_toList.mp second))
  all_goals cases used

theorem sizeOf_lt_of_mem_children {node child : WireSpec} (used : child ∈ node.children) :
    sizeOf child < sizeOf node := by
  obtain ⟨kind, name, expression, required, nested, fallback, least, most, literal, entries⟩ := node
  rw [node.sizeOf_spec]
  rcases mem_of_mem_children used with ⟨_, inside⟩ | rfl | rfl
  · have smaller := List.sizeOf_lt_of_mem inside
    rw [Prod.mk.sizeOf_spec] at smaller
    omega
  · rw [Option.some.sizeOf_spec]
    omega
  · rw [Option.some.sizeOf_spec]
    omega

/-- What holds of a node whenever it holds of the nodes that it uses, holds of every node. -/
theorem children_induction {motive : WireSpec → Prop}
    (step : ∀ node, (∀ child ∈ node.children, motive child) → motive node) (node : WireSpec) :
    motive node :=
  step node fun child used =>
    have := sizeOf_lt_of_mem_children used
    children_induction step child
termination_by sizeOf node

theorem Reaches.head {node child last : WireSpec} (used : child ∈ node.children)
    (reached : child.Reaches last) : node.Reaches last := by
  induction reached with
  | self => exact .child .self used
  | child _ below ih => exact .child ih below

theorem read_of_reaches {node last : WireSpec} (read : ∃ spec, toSpec node = .ok spec)
    (reached : node.Reaches last) : ∃ spec, toSpec last = .ok spec := by
  induction reached with
  | self => exact read
  | child _ used ih => exact ((exists_toSpec_iff _).mp ih).2 _ used

theorem exists_toSpec_iff_reached (node : WireSpec) :
    (∃ spec, toSpec node = .ok spec) ↔ ∀ last, node.Reaches last → last.Complete := by
  constructor
  · intro read last reached
    exact ((exists_toSpec_iff last).mp (read_of_reaches read reached)).1
  · induction node using children_induction with
    | step node ih =>
      intro complete
      refine (exists_toSpec_iff node).mpr ⟨complete node .self, ?_⟩
      intro child used
      exact ih child used fun last reached => complete last (reached.head used)

/-! ## Ignored fields -/

mutual

/-- The fields that the kinds of the nodes ignore make no difference. -/
theorem toSpec_used (node : WireSpec) : toSpec (used node) = toSpec node := by
  obtain ⟨kind, name, expression, required, nested, fallback, least, most, literal, entries⟩ := node
  have main := toNested_usedNested nested
  have other := toNested_usedNested fallback
  have inside := toEntries_usedEntries entries
  cases known : WireKind.ofNumber? kind with
  | none => simp only [used, toSpec, known]
  | some found => cases found <;> simp only [used, toSpec, known, main, other, inside]

theorem toNested_usedNested (nested : Option WireSpec) (kind : WireKind) (field : WireField) :
    toNested kind field (usedNested nested) = toNested kind field nested := by
  cases nested with
  | none => rfl
  | some node => exact toSpec_used node

theorem toEntries_usedEntries (entries : List (String × WireSpec)) :
    toEntries (usedEntries entries) = toEntries entries := by
  cases entries with
  | nil => rfl
  | cons entry rest =>
    obtain ⟨name, node⟩ := entry
    simp only [usedEntries, toEntries, toSpec_used node, toEntries_usedEntries rest]

end

/-! ## Entries with one name -/

/-- The members are those of the entries; of the entries with one name the last counts. -/
def LastOfEach (entries : List (String × WireSpec)) (members : Fields Spec) : Prop :=
  members.Ascending ∧
    ∀ name, Fields.find? name members =
      (entries.reverse.lookup name).bind fun node => (toSpec node).toOption

theorem lookup_of_read {entries : List (String × WireSpec)} {specs : List (String × Spec)}
    (read : List.Forall₂ (fun entry spec => entry.1 = spec.1 ∧ toSpec entry.2 = .ok spec.2)
      entries specs) (name : String) :
    specs.lookup name = (entries.lookup name).bind fun node => (toSpec node).toOption := by
  induction read with
  | nil => rfl
  | @cons entry spec _ _ first _ ih =>
    obtain ⟨key, node⟩ := entry
    obtain ⟨_, found⟩ := spec
    obtain ⟨rfl, made⟩ := first
    rw [List.lookup_cons, List.lookup_cons, ih]
    cases name == key
    · rfl
    · exact (congrArg Except.toOption made).symm

theorem lastOfEach_ofList {entries : List (String × WireSpec)} {specs : List (String × Spec)}
    (read : toEntries entries = .ok specs) : LastOfEach entries (Fields.ofList specs) := by
  refine ⟨Fields.ascending_ofList specs, fun name => ?_⟩
  rw [Fields.find?_ofList]
  exact lookup_of_read (List.forall₂_reverse_iff.mpr (toEntries_ok_iff.mp read)) name

def objectEntries? : WireSpec → Option (List (String × WireSpec))
  | .node kind _ _ _ _ _ _ _ _ entries =>
    if WireKind.ofNumber? kind = some .object then some entries else none

theorem object_of_read {node : WireSpec} {entries : List (String × WireSpec)} {spec : Spec}
    (object : node.objectEntries? = some entries) (read : toSpec node = .ok spec) :
    ∃ members, spec = .object members ∧ LastOfEach entries members := by
  obtain ⟨kind, name, expression, required, nested, fallback, least, most, literal, given⟩ := node
  obtain ⟨known, same⟩ := Option.ite_none_right_eq_some.mp object
  obtain rfl := Option.some.inj same
  simp only [toSpec, known] at read
  obtain ⟨specs, inside, made⟩ := bind_eq_ok.mp read
  cases made
  exact ⟨_, rfl, lastOfEach_ofList inside⟩

/-! ## Written again -/

theorem exists_entry_of_mem {entries : List (String × WireSpec)} {specs : List (String × Spec)}
    (read : toEntries entries = .ok specs) {member : String × Spec} (inside : member ∈ specs) :
    ∃ entry ∈ entries, toSpec entry.2 = .ok member.2 := by
  have each := toEntries_ok_iff.mp read
  induction each with
  | nil => cases inside
  | @cons entry spec _ _ first later ih =>
    rcases List.mem_cons.mp inside with rfl | behind
    · exact ⟨entry, List.mem_cons_self .., first.2⟩
    · obtain ⟨found, given, made⟩ := ih (toEntries_ok_iff.mpr later) behind
      exact ⟨found, List.mem_cons_of_mem _ given, made⟩

theorem toEntries_ofEntries_of_each {specs : List (String × Spec)}
    (each : ∀ member ∈ specs, toSpec (ofSpec member.2) = .ok member.2) :
    toEntries (ofEntries specs) = .ok specs := by
  induction specs with
  | nil => rfl
  | cons member rest ih =>
    obtain ⟨name, spec⟩ := member
    obtain ⟨first, later⟩ := List.forall_mem_cons.mp each
    simp only [ofEntries, toEntries, first, ih later, bind, Except.bind]

theorem toEntries_ofList_again {entries : List (String × WireSpec)} {specs : List (String × Spec)}
    (read : toEntries entries = .ok specs)
    (again : ∀ entry ∈ entries, ∀ spec, toSpec entry.2 = .ok spec → toSpec (ofSpec spec) = .ok spec) :
    toEntries (ofEntries (Fields.ofList specs)) = .ok (Fields.ofList specs) := by
  refine toEntries_ofEntries_of_each fun member inside => ?_
  obtain ⟨entry, given, made⟩ := exists_entry_of_mem read (Fields.mem_of_mem_ofList inside)
  exact again entry given member.2 made

theorem toNested_eq_ok {kind : WireKind} {field : WireField} {nested : Option WireSpec}
    {spec : Spec} :
    toNested kind field nested = .ok spec ↔ ∃ node, nested = some node ∧ toSpec node = .ok spec := by
  cases nested <;> simp [toNested]

/-- What a node is read as is what it is read as when it is written again. -/
theorem toSpec_again (node : WireSpec) :
    ∀ spec, toSpec node = .ok spec → toSpec (ofSpec spec) = .ok spec := by
  induction node using children_induction with
  | step node ih =>
    obtain ⟨kind, name, expression, required, nested, fallback, least, most, literal, entries⟩ := node
    intro spec read
    cases known : WireKind.ofNumber? kind with
    | none =>
      simp only [toSpec, known] at read
      cases read
    | some found =>
      simp only [toSpec, known] at read
      simp only [children, known] at ih
      -- what is read is put together again from parts that are written and read by induction
      cases found with
      | object =>
        obtain ⟨specs, inside, made⟩ := bind_eq_ok.mp read
        cases made
        exact toSpec_ofSpec_object (Fields.ascending_ofList specs)
          (toEntries_ofList_again inside (List.forall_mem_map.mp ih))
      | attr =>
        obtain ⟨_, _, read⟩ := bind_eq_ok.mp read
        obtain ⟨text, _, read⟩ := bind_eq_ok.mp read
        obtain ⟨ty, parsed, made⟩ := bind_eq_ok.mp read
        cases made
        have inOrder : ty.Ordered := Ty.ordered_parse (parseTy_eq_ok.mp parsed)
        exact toSpec_ofSpec _ inOrder
      | block =>
        obtain ⟨_, _, read⟩ := bind_eq_ok.mp read
        obtain ⟨inner, inside, made⟩ := bind_eq_ok.mp read
        cases made
        obtain ⟨_, rfl, below⟩ := toNested_eq_ok.mp inside
        exact toSpec_ofSpec_block (ih _ (List.mem_singleton_self _) inner below) _ _
      | blockList =>
        obtain ⟨_, _, read⟩ := bind_eq_ok.mp read
        obtain ⟨inner, inside, made⟩ := bind_eq_ok.mp read
        cases made
        obtain ⟨_, rfl, below⟩ := toNested_eq_ok.mp inside
        exact toSpec_ofSpec_blockList (ih _ (List.mem_singleton_self _) inner below) _ _ _
      | literal =>
        obtain ⟨_, _, made⟩ := bind_eq_ok.mp read
        cases made
        rfl
      | fallback =>
        obtain ⟨primary, first, read⟩ := bind_eq_ok.mp read
        obtain ⟨otherwise, second, made⟩ := bind_eq_ok.mp read
        cases made
        obtain ⟨_, rfl, above⟩ := toNested_eq_ok.mp first
        obtain ⟨_, rfl, below⟩ := toNested_eq_ok.mp second
        exact toSpec_ofSpec_fallback (ih _ (List.mem_cons_self ..) primary above)
          (ih _ (List.mem_append_right _ (List.mem_singleton_self _)) otherwise below)

end WireSpec

namespace WireDocument

def Reaches (document : WireDocument) (node : WireSpec) : Prop :=
  ∃ entry ∈ document.root, entry.2.Reaches node

def used (document : WireDocument) : WireDocument :=
  ⟨document.version, WireSpec.usedEntries document.root⟩

theorem toSpec_eq_ok {document : WireDocument} {spec : ObjectSpec} :
    document.toSpec = .ok spec ↔
      document.version = currentVersion ∧
        ∃ specs, WireSpec.toEntries document.root = .ok specs ∧ Fields.ofList specs = spec := by
  unfold toSpec
  split
  next same => simp only [same, true_and, bind_eq_ok, Except.ok.injEq]
  next other => simp only [other, false_and, reduceCtorEq]

theorem exists_toSpec_iff (document : WireDocument) :
    (∃ spec, document.toSpec = .ok spec) ↔
      document.version = currentVersion ∧ ∀ node, document.Reaches node → node.Complete := by
  have each : (∃ specs, WireSpec.toEntries document.root = .ok specs) ↔
      ∀ node, document.Reaches node → node.Complete := by
    rw [WireSpec.exists_toEntries_iff]
    simp only [WireSpec.exists_toSpec_iff_reached]
    exact ⟨fun complete node ⟨entry, inside, reached⟩ => complete entry inside node reached,
      fun complete entry inside node reached => complete node ⟨entry, inside, reached⟩⟩
  rw [← each]
  simp only [toSpec_eq_ok]
  exact ⟨fun ⟨_, same, specs, read, _⟩ => ⟨same, specs, read⟩,
    fun ⟨same, specs, read⟩ => ⟨_, same, specs, read, rfl⟩⟩

theorem toSpec_used (document : WireDocument) : document.used.toSpec = document.toSpec := by
  simp only [toSpec, used, WireSpec.toEntries_usedEntries]

theorem toSpec_again {document : WireDocument} {spec : ObjectSpec}
    (read : document.toSpec = .ok spec) : (ofSpec spec).toSpec = .ok spec := by
  obtain ⟨_, specs, inside, rfl⟩ := toSpec_eq_ok.mp read
  have again := WireSpec.toEntries_ofList_again inside fun entry _ => WireSpec.toSpec_again entry.2
  exact toSpec_eq_ok.mpr
    ⟨rfl, _, again, Fields.ofList_ascending _ (Fields.ascending_ofList specs)⟩

theorem read_of_reaches {document : WireDocument} {spec : ObjectSpec} {node : WireSpec}
    (read : document.toSpec = .ok spec) (reached : document.Reaches node) :
    ∃ inner, node.toSpec = .ok inner := by
  obtain ⟨entry, inside, below⟩ := reached
  obtain ⟨_, specs, each, _⟩ := toSpec_eq_ok.mp read
  exact WireSpec.read_of_reaches (WireSpec.exists_toEntries_iff.mp ⟨specs, each⟩ entry inside) below

/-- In a message that is read, as in every object that it uses, the last of the entries with one
name counts. -/
theorem lastOfEach_of_read {document : WireDocument} {spec : ObjectSpec}
    (read : document.toSpec = .ok spec) :
    WireSpec.LastOfEach document.root spec ∧
      ∀ node entries, document.Reaches node → node.objectEntries? = some entries →
        ∃ members, node.toSpec = .ok (.object members) ∧ WireSpec.LastOfEach entries members := by
  constructor
  · obtain ⟨_, specs, inside, rfl⟩ := toSpec_eq_ok.mp read
    exact WireSpec.lastOfEach_ofList inside
  · intro node entries reached object
    obtain ⟨inner, below⟩ := read_of_reaches read reached
    obtain ⟨members, rfl, last⟩ := WireSpec.object_of_read object below
    exact ⟨members, below, last⟩

/-- A message is read exactly if it has the current version and every node that is reached through
fields that are used is complete. The fields that the kinds of the nodes ignore make no difference,
the last of the entries with one name counts, and what is read is read again when it is written; so
is every specification that is written. -/
theorem read_iff_complete (document : WireDocument) :
    ((∃ spec, document.toSpec = .ok spec) ↔
      document.version = 1 ∧ ∀ node, document.Reaches node → node.Complete) ∧
    (∀ other : WireDocument, other.used = document.used → other.toSpec = document.toSpec) ∧
    (∀ spec, document.toSpec = .ok spec →
      WireSpec.LastOfEach document.root spec ∧
      (∀ node entries, document.Reaches node → node.objectEntries? = some entries →
        ∃ members, node.toSpec = .ok (.object members) ∧ WireSpec.LastOfEach entries members) ∧
      (ofSpec spec).toSpec = .ok spec) ∧
    ∀ spec : ObjectSpec, Fields.Ascending spec → Spec.OrderedEntries spec →
      (ofSpec spec).toSpec = .ok spec := by
  refine ⟨exists_toSpec_iff document, ?_, ?_, toSpec_ofSpec⟩
  · intro other same
    rw [← toSpec_used other, same, toSpec_used document]
  · intro spec read
    obtain ⟨outer, inner⟩ := lastOfEach_of_read read
    exact ⟨outer, inner, toSpec_again read⟩

section Example

/-- An object with two entries of one name, and with a nested node of no known kind, which objects
ignore. -/
def untidyObject : WireSpec :=
  .node 1 none none true (some (.node 9 none none false none none 0 0 none [])) none 7 0 none
    [("size", .node 5 none none false none none 0 0 (some (.bool true)) []),
      ("size", .node 2 (some "gib") (some "list( number )") true none none 0 3 none [])]

def untidyDocument : WireDocument :=
  ⟨1, [("disk", .node 3 (some "disk") none true (some untidyObject) none 0 0 none []),
    ("disk", untidyObject)]⟩

def untidySpec : ObjectSpec :=
  [("disk", .object [("size", .attr "gib" (.list .number) true)])]

theorem toSpec_untidyDocument : untidyDocument.toSpec = .ok untidySpec := by
  have parsed : WireSpec.parseTy "list( number )" = .ok (.list .number) :=
    WireSpec.parseTy_eq_ok.mpr (by decide +kernel)
  simp only [toSpec, untidyDocument, untidyObject, WireSpec.toEntries, WireSpec.toSpec,
    WireSpec.toNested, WireSpec.need, WireKind.ofNumber?, parsed, bind, Except.bind]
  rfl

theorem read_iff_complete_untidy :
    (untidyDocument.version = 1 ∧ ∀ node, untidyDocument.Reaches node → node.Complete) ∧
    untidyDocument.used.toSpec = .ok untidySpec ∧
    WireSpec.LastOfEach untidyDocument.root untidySpec ∧
    (∃ entries members, untidyObject.objectEntries? = some entries ∧
      untidyObject.toSpec = .ok (.object members) ∧ WireSpec.LastOfEach entries members) ∧
    Fields.Ascending untidySpec ∧ Spec.OrderedEntries untidySpec ∧
    (ofSpec untidySpec).toSpec = .ok untidySpec := by
  obtain ⟨accepted, insensitive, settled, written⟩ := read_iff_complete untidyDocument
  have read := toSpec_untidyDocument
  obtain ⟨outer, inner, -⟩ := settled untidySpec read
  have reached : untidyDocument.Reaches untidyObject :=
    ⟨("disk", untidyObject), List.mem_cons_of_mem _ (List.mem_singleton_self _), .self⟩
  obtain ⟨members, object, last⟩ := inner untidyObject _ reached rfl
  have ascending : Fields.Ascending untidySpec := by decide
  have ordered : Spec.OrderedEntries untidySpec := by
    simp only [untidySpec, Spec.OrderedEntries, Spec.Ordered, Ty.Ordered]
    decide
  refine ⟨accepted.mp ⟨untidySpec, read⟩, ?_, outer, ⟨_, members, rfl, object, last⟩, ascending,
    ordered, written untidySpec ascending ordered⟩
  rw [insensitive untidyDocument.used rfl, read]

end Example

end WireDocument

end PluginBridge
