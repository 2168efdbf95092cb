import PluginBridge.Proofs.CborSteady

/-! Values and specification messages of the self-describing encoding: their readers do not look
behind what they take, at any depth. -/

namespace PluginBridge.Cbor

open Reader

/-! ## Values -/

theorem steady_readKind : readKind.Steady := by
  apply steady_readName.bind
  intro name
  split
  · exact steady_pure _
  · exact keptBy_throw _ _

mutual

theorem steady_readValueWithin (depth : Nat) : (readValueWithin depth).Steady := by
  cases depth with
  | zero => exact steady_openChoice.bind fun _ => keptBy_throw _ _
  | succ depth =>
    have items := steady_readItems depth
    have members := steady_readMembers depth
    unfold readValueWithin
    apply steady_openChoice.bind
    intro _
    apply steady_readKind.bind
    intro kind
    cases kind with
    | null => exact steady_pure _
    | bool => exact steady_readBool.map _
    | number => exact steady_readNumber.map _
    | string => exact steady_readText.map _
    | list | set | tuple => exact items.map _
    | map | object => exact members.map _
termination_by depth

theorem steady_readItems (depth : Nat) : (readItems depth).Steady := by
  cases depth with
  | zero => exact steady_openArray_bind rfl fun _ => keptBy_throw _ _
  | succ depth =>
    have item := steady_readValueWithin depth
    exact steady_openArray_bind rfl fun count? => steady_collect item count?
termination_by depth

theorem steady_readMembers (depth : Nat) : (readMembers depth).Steady := by
  cases depth with
  | zero => exact steady_openMap.bind fun _ => keptBy_throw _ _
  | succ depth =>
    have content := steady_readValueWithin depth
    have member := steady_readText.bind fun name => content.bind fun value =>
      steady_pure (name, value)
    exact steady_openMap.bind fun count? => steady_collect member count?
termination_by depth

end

/-! ## Maps with known fields -/

section Fields

variable {α β : Type}

theorem steady_once {content : Reader Error α} (steady : content.Steady) (seen : Option α) :
    (once seen content).Steady := by
  unfold once
  split
  · exact keptBy_throw _ _
  · exact steady.map some

/-- A field that is read and put where it belongs. -/
theorem steady_slot {content : Reader Error α} (steady : content.Steady) (seen : Option α)
    (put : Option α → β) : (once seen content >>= fun found => pure (put found)).Steady :=
  (steady_once steady seen).bind fun found => steady_pure (put found)

theorem steady_seenField (seen : Option α) : (seenField seen).Steady := by
  cases seen with
  | none => exact keptBy_throw _ _
  | some a => exact steady_pure a

theorem steady_readFieldOfTwo {a : Reader Error α} {b : Reader Error β} (left : a.Steady)
    (right : b.Steady) (depth : Nat) (first second : String) (seen : Option α × Option β) :
    (readFieldOfTwo depth first second a b seen).Steady := by
  obtain ⟨a?, b?⟩ := seen
  apply steady_readName.bind
  intro name
  split
  · exact steady_slot left a? _
  · split
    · exact steady_slot right b? _
    · exact (steady_ignore depth).bind fun _ => steady_pure (a?, b?)

theorem steady_readTwoFields {a : Reader Error α} {b : Reader Error β} (left : a.Steady)
    (right : b.Steady) (depth : Nat) (first second : String) :
    (readTwoFields depth first second a b).Steady := by
  have field := steady_readFieldOfTwo left right depth first second
  apply steady_openMap.bind
  intro count?
  apply (steady_forItems field count? (none, none)).bind
  rintro ⟨a?, b?⟩
  exact (steady_seenField a?).bind fun a => (steady_seenField b?).bind fun b => steady_pure (a, b)

end Fields

/-! ## Specification messages -/

theorem steady_readSpecContent {nested : Reader Error WireSpec}
    {entries : Reader Error (List (String × WireSpec))} (inner : nested.Steady)
    (each : entries.Steady) (depth : Nat) (fields : SpecFields) (name? : Option String) :
    (readSpecContent depth nested entries fields name?).Steady := by
  unfold readSpecContent
  split
  · exact steady_slot (steady_readNat 255) fields.kind _
  · exact steady_slot (steady_readOption steady_readText) fields.name _
  · exact steady_slot (steady_readOption steady_readText) fields.typeExpression _
  · exact steady_slot steady_readBool fields.required _
  · exact steady_slot (steady_readOption inner) fields.nested _
  · exact steady_slot (steady_readOption inner) fields.fallback _
  · exact steady_slot (steady_readNat 0xffffffff) fields.least _
  · exact steady_slot (steady_readNat 0xffffffff) fields.most _
  · exact steady_slot (steady_readOption (steady_readValueWithin depth)) fields.literal _
  · exact steady_slot each fields.entries _
  · exact (steady_ignore depth).bind fun _ => steady_pure fields

theorem steady_readSpecField {nested : Reader Error WireSpec}
    {entries : Reader Error (List (String × WireSpec))} (inner : nested.Steady)
    (each : entries.Steady) (depth : Nat) (fields : SpecFields) :
    (readSpecField depth nested entries fields).Steady :=
  steady_readName.bind fun _ => steady_readSpecContent inner each depth fields _

mutual

theorem steady_readSpecWithin (depth : Nat) : (readSpecWithin depth).Steady := by
  cases depth with
  | zero => exact steady_openMap.bind fun _ => keptBy_throw _ _
  | succ depth =>
    have field := steady_readSpecField (steady_readSpecWithin depth)
      (steady_readEntriesWithin depth) depth
    unfold readSpecWithin
    apply steady_openMap.bind
    intro count?
    exact (steady_forItems field count? {}).bind fun fields => steady_pure fields.node
termination_by depth

theorem steady_readEntriesWithin (depth : Nat) : (readEntriesWithin depth).Steady := by
  cases depth with
  | zero => exact steady_openArray_bind rfl fun _ => keptBy_throw _ _
  | succ depth =>
    have entry := steady_readEntryWithin depth
    exact steady_openArray_bind rfl fun count? => steady_collect entry count?
termination_by depth

theorem steady_readEntryWithin (depth : Nat) : (readEntryWithin depth).Steady := by
  cases depth with
  | zero => exact steady_openMap.bind fun _ => keptBy_throw _ _
  | succ depth =>
    exact steady_readTwoFields steady_readText (steady_readSpecWithin depth) depth "key" "spec"
termination_by depth

end

theorem steady_readDocument : readDocument.Steady := by
  have entries := steady_readEntriesWithin (depthLimit - 1)
  apply (steady_readTwoFields (steady_readNat _) entries _ _ _).bind
  rintro ⟨version, root⟩
  exact steady_pure _

theorem steady_readTyped : readTyped.Steady :=
  steady_readTwoFields steady_readText (steady_readValueWithin _) _ _ _

end PluginBridge.Cbor
