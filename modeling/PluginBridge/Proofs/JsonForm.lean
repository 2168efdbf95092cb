import PluginBridge.Value.Json

/-! What JSON keeps of a value is its normal form. The plain values are those that are in normal
form, so writing and reading once is as good as any number of times. Where values are compared as
the program compares them, with numbers as numbers, the same holds. -/

namespace PluginBridge

namespace Value

/-! ## Written and read again -/

mutual

theorem ofJson_toJson (value : Value) : ofJson value.toJson = value.normalForm := by
  cases value with
  | null => rfl
  | bool truth => rfl
  | number x =>
    rw [toJson, Json.ofNumber, normalForm]
    split <;> rfl
  | string text => rfl
  | list items => exact congrArg tuple (ofJsonItems_toJsonItems items)
  | set items => exact congrArg tuple (ofJsonItems_toJsonItems items)
  | tuple items => exact congrArg tuple (ofJsonItems_toJsonItems items)
  | map members => exact congrArg object (ofJsonMembers_toJsonMembers members)
  | object members => exact congrArg object (ofJsonMembers_toJsonMembers members)
termination_by structural value

theorem ofJsonItems_toJsonItems (items : List Value) :
    ofJsonItems (toJsonItems items) = normalFormItems items := by
  cases items with
  | nil => rfl
  | cons item rest =>
    rw [toJsonItems, ofJsonItems, normalFormItems, ofJson_toJson item, ofJsonItems_toJsonItems rest]
termination_by structural items

theorem ofJsonMembers_toJsonMembers (members : List (String × Value)) :
    ofJsonMembers (toJsonMembers members) = normalFormMembers members := by
  cases members with
  | nil => rfl
  | cons member rest =>
    obtain ⟨name, value⟩ := member
    rw [toJsonMembers, ofJsonMembers, normalFormMembers, ofJson_toJson value,
      ofJsonMembers_toJsonMembers rest]
termination_by structural members

end

mutual

/-- The JSON of a value shows its normal form only. -/
theorem toJson_normalForm (value : Value) : value.normalForm.toJson = value.toJson := by
  cases value with
  | null => rfl
  | bool truth => rfl
  | number x =>
    rw [normalForm, toJson, Json.ofNumber]
    split
    next finite => rw [toJson, Json.ofNumber, if_pos finite]
    next => rfl
  | string text => rfl
  | list items => exact congrArg Json.array (toJsonItems_normalFormItems items)
  | set items => exact congrArg Json.array (toJsonItems_normalFormItems items)
  | tuple items => exact congrArg Json.array (toJsonItems_normalFormItems items)
  | map members => exact congrArg Json.object (toJsonMembers_normalFormMembers members)
  | object members => exact congrArg Json.object (toJsonMembers_normalFormMembers members)
termination_by structural value

theorem toJsonItems_normalFormItems (items : List Value) :
    toJsonItems (normalFormItems items) = toJsonItems items := by
  cases items with
  | nil => rfl
  | cons item rest =>
    rw [normalFormItems, toJsonItems, toJsonItems, toJson_normalForm item,
      toJsonItems_normalFormItems rest]
termination_by structural items

theorem toJsonMembers_normalFormMembers (members : List (String × Value)) :
    toJsonMembers (normalFormMembers members) = toJsonMembers members := by
  cases members with
  | nil => rfl
  | cons member rest =>
    obtain ⟨name, value⟩ := member
    rw [normalFormMembers, toJsonMembers, toJsonMembers, toJson_normalForm value,
      toJsonMembers_normalFormMembers rest]
termination_by structural members

end

theorem toJson_eq_iff {value other : Value} :
    value.toJson = other.toJson ↔ value.normalForm = other.normalForm := by
  constructor
  · intro same
    rw [← ofJson_toJson, ← ofJson_toJson, same]
  · intro same
    rw [← toJson_normalForm, ← toJson_normalForm other, same]

/-! ## Plain values -/

mutual

theorem plain_normalForm (value : Value) : value.normalForm.Plain := by
  cases value with
  | null => exact .null
  | bool truth => exact .bool truth
  | number x =>
    rw [normalForm]
    split
    next finite => exact .number finite
    next => exact .null
  | string text => exact .string text
  | list items => exact .tuple (plain_normalFormItems items)
  | set items => exact .tuple (plain_normalFormItems items)
  | tuple items => exact .tuple (plain_normalFormItems items)
  | map members => exact .object (plain_normalFormMembers members)
  | object members => exact .object (plain_normalFormMembers members)
termination_by structural value

theorem plain_normalFormItems (items : List Value) : ∀ item ∈ normalFormItems items, item.Plain := by
  cases items with
  | nil => exact List.forall_mem_nil _
  | cons item rest =>
    exact List.forall_mem_cons.mpr ⟨plain_normalForm item, plain_normalFormItems rest⟩
termination_by structural items

theorem plain_normalFormMembers (members : List (String × Value)) :
    ∀ member ∈ normalFormMembers members, member.2.Plain := by
  cases members with
  | nil => exact List.forall_mem_nil _
  | cons member rest =>
    obtain ⟨name, value⟩ := member
    exact List.forall_mem_cons.mpr ⟨plain_normalForm value, plain_normalFormMembers rest⟩
termination_by structural members

end

theorem normalFormItems_of_each {items : List Value} (each : ∀ item ∈ items, item.normalForm = item) :
    normalFormItems items = items := by
  induction items with
  | nil => rfl
  | cons item rest ih =>
    obtain ⟨first, later⟩ := List.forall_mem_cons.mp each
    rw [normalFormItems, first, ih later]

theorem normalFormMembers_of_each {members : List (String × Value)}
    (each : ∀ member ∈ members, member.2.normalForm = member.2) :
    normalFormMembers members = members := by
  induction members with
  | nil => rfl
  | cons member rest ih =>
    obtain ⟨name, value⟩ := member
    obtain ⟨first, later⟩ := List.forall_mem_cons.mp each
    rw [normalFormMembers, first, ih later]

theorem Plain.normalForm_eq {value : Value} (plain : value.Plain) : value.normalForm = value := by
  induction plain with
  | null => rfl
  | bool truth => rfl
  | number finite => exact if_pos finite
  | string text => rfl
  | tuple _ ih => exact congrArg Value.tuple (normalFormItems_of_each ih)
  | object _ ih => exact congrArg Value.object (normalFormMembers_of_each ih)

theorem normalForm_eq_self_iff {value : Value} : value.normalForm = value ↔ value.Plain :=
  ⟨fun same => same ▸ plain_normalForm value, Plain.normalForm_eq⟩

theorem normalForm_normalForm (value : Value) : value.normalForm.normalForm = value.normalForm :=
  (plain_normalForm value).normalForm_eq

/-! ## Numbers as numbers -/

theorem same_self_of_finite {x : Binary64} (finite : x.isFinite = true) : x.same x = true := by
  have proper : x.isNaN = false := by
    rw [Binary64.isFinite, bne_iff_ne] at finite
    rw [Binary64.isNaN, beq_false_of_ne finite, Bool.false_and]
  simp [Binary64.same, proper]

theorem finite_of_same {x y : Binary64} (equal : x.same y = true) (finite : x.isFinite = true) :
    y.isFinite = true := by
  simp only [Binary64.same, Bool.and_eq_true, Bool.or_eq_true, beq_iff_eq] at equal
  rcases equal.2 with bits | ⟨_, zero⟩
  · have alike : x = y := congrArg Binary64.mk bits
    exact alike ▸ finite
  · simp only [Binary64.isZero, Bool.and_eq_true, beq_iff_eq] at zero
    rw [Binary64.isFinite, zero.1]
    rfl

theorem equalItemsBy_self {agree : Binary64 → Binary64 → Bool} {items : List Value}
    (each : ∀ item ∈ items, equalBy agree item item = true) :
    equalItemsBy agree items items = true := by
  induction items with
  | nil => rfl
  | cons item rest ih =>
    obtain ⟨first, later⟩ := List.forall_mem_cons.mp each
    rw [equalItemsBy, first, ih later, Bool.and_self]

theorem equalMembersBy_self {agree : Binary64 → Binary64 → Bool} {members : List (String × Value)}
    (each : ∀ member ∈ members, equalBy agree member.2 member.2 = true) :
    equalMembersBy agree members members = true := by
  induction members with
  | nil => rfl
  | cons member rest ih =>
    obtain ⟨name, value⟩ := member
    obtain ⟨first, later⟩ := List.forall_mem_cons.mp each
    rw [equalMembersBy, first, ih later, beq_self_eq_true, Bool.and_self, Bool.and_self]

theorem Plain.same_self {value : Value} (plain : value.Plain) : same value value = true := by
  induction plain with
  | null => rfl
  | bool truth => exact beq_self_eq_true truth
  | number finite => exact same_self_of_finite finite
  | string text => exact beq_self_eq_true text
  | tuple _ ih => exact equalItemsBy_self ih
  | object _ ih => exact equalMembersBy_self ih

theorem each_of_equalItemsBy {holds : Value → Prop} {as bs : List Value}
    (each : ∀ a ∈ as, ∀ b : Value, same a b = true → holds b)
    (equal : equalItemsBy Binary64.same as bs = true) : ∀ b ∈ bs, holds b := by
  induction as generalizing bs with
  | nil =>
    cases bs with
    | nil => exact List.forall_mem_nil _
    | cons => cases equal
  | cons a as ih =>
    cases bs with
    | nil => cases equal
    | cons b bs =>
      obtain ⟨first, later⟩ := List.forall_mem_cons.mp each
      obtain ⟨here, others⟩ := Bool.and_eq_true_iff.mp equal
      exact List.forall_mem_cons.mpr ⟨first b here, ih later others⟩

theorem each_of_equalMembersBy {holds : Value → Prop} {as bs : List (String × Value)}
    (each : ∀ a ∈ as, ∀ b : Value, same a.2 b = true → holds b)
    (equal : equalMembersBy Binary64.same as bs = true) : ∀ b ∈ bs, holds b.2 := by
  induction as generalizing bs with
  | nil =>
    cases bs with
    | nil => exact List.forall_mem_nil _
    | cons => cases equal
  | cons a as ih =>
    cases bs with
    | nil => cases equal
    | cons b bs =>
      obtain ⟨first, later⟩ := List.forall_mem_cons.mp each
      obtain ⟨here, others⟩ := Bool.and_eq_true_iff.mp equal
      exact List.forall_mem_cons.mpr ⟨first b.2 (Bool.and_eq_true_iff.mp here).2, ih later others⟩

/-- What equals a plain value is plain. -/
theorem Plain.of_same {a b : Value} (plain : a.Plain) (equal : same a b = true) : b.Plain := by
  induction plain generalizing b with
  | null =>
    cases b with
    | null => exact .null
    | _ => cases equal
  | bool =>
    cases b with
    | bool truth => exact .bool truth
    | _ => cases equal
  | number finite =>
    cases b with
    | number => exact .number (finite_of_same equal finite)
    | _ => cases equal
  | string =>
    cases b with
    | string text => exact .string text
    | _ => cases equal
  | tuple _ ih =>
    cases b with
    | tuple => exact .tuple (each_of_equalItemsBy (fun a inside b => ih a inside) equal)
    | _ => cases equal
  | object _ ih =>
    cases b with
    | object => exact .object (each_of_equalMembersBy (fun a inside b => ih a inside) equal)
    | _ => cases equal

theorem toJson_number {x : Binary64} (finite : x.isFinite = true) :
    (number x).toJson = .real x := by
  rw [toJson, Json.ofNumber, if_pos finite]

theorem equalItemsBy_toJsonItems {agree : Binary64 → Binary64 → Bool} {as bs : List Value}
    (each : ∀ a ∈ as, ∀ b : Value, b.Plain →
      Json.equalBy agree a.toJson b.toJson = equalBy agree a b)
    (plain : ∀ b ∈ bs, b.Plain) :
    Json.equalItemsBy agree (toJsonItems as) (toJsonItems bs) = equalItemsBy agree as bs := by
  induction as generalizing bs with
  | nil => cases bs <;> rfl
  | cons a as ih =>
    cases bs with
    | nil => rfl
    | cons b bs =>
      obtain ⟨first, later⟩ := List.forall_mem_cons.mp each
      obtain ⟨here, others⟩ := List.forall_mem_cons.mp plain
      rw [toJsonItems, toJsonItems, Json.equalItemsBy, equalItemsBy, first b here, ih later others]

theorem equalMembersBy_toJsonMembers {agree : Binary64 → Binary64 → Bool}
    {as bs : List (String × Value)}
    (each : ∀ a ∈ as, ∀ b : Value, b.Plain →
      Json.equalBy agree a.2.toJson b.toJson = equalBy agree a.2 b)
    (plain : ∀ b ∈ bs, b.2.Plain) :
    Json.equalMembersBy agree (toJsonMembers as) (toJsonMembers bs) = equalMembersBy agree as bs := by
  induction as generalizing bs with
  | nil => cases bs <;> rfl
  | cons a as ih =>
    cases bs with
    | nil => rfl
    | cons b bs =>
      obtain ⟨key, a⟩ := a
      obtain ⟨name, b⟩ := b
      obtain ⟨first, later⟩ := List.forall_mem_cons.mp each
      obtain ⟨here, others⟩ := List.forall_mem_cons.mp plain
      rw [toJsonMembers, toJsonMembers, Json.equalMembersBy, equalMembersBy, first b here,
        ih later others]

/-- Plain values are equal if their JSON is, however numbers are compared. -/
theorem Plain.equalBy_toJson {agree : Binary64 → Binary64 → Bool} {a b : Value} (plain : a.Plain)
    (other : b.Plain) : Json.equalBy agree a.toJson b.toJson = equalBy agree a b := by
  induction plain generalizing b with
  | number finite =>
    rw [toJson_number finite]
    cases other with
    | number finite =>
      rw [toJson_number finite]
      rfl
    | _ => rfl
  | tuple _ ih =>
    cases other with
    | tuple each => exact equalItemsBy_toJsonItems (fun a inside b => ih a inside) each
    | number finite =>
      rw [toJson_number finite]
      rfl
    | _ => rfl
  | object _ ih =>
    cases other with
    | object each => exact equalMembersBy_toJsonMembers (fun a inside b => ih a inside) each
    | number finite =>
      rw [toJson_number finite]
      rfl
    | _ => rfl
  | _ =>
    cases other with
    | number finite =>
      rw [toJson_number finite]
      rfl
    | _ => rfl

/-- Written as JSON and read again, a value becomes its normal form, and stays that however often
this is done. It comes back as it was exactly if it is plain, and two values have the same JSON
exactly if they have the same normal form. This holds for equality bit by bit and for equality with
numbers as numbers. -/
theorem json_keeps_normalForm (value : Value) :
    ofJson value.toJson = value.normalForm ∧
    (ofJson value.toJson).toJson = value.toJson ∧
    ofJson (ofJson value.toJson).toJson = ofJson value.toJson ∧
    (ofJson value.toJson = value ↔ value.Plain) ∧
    (same (ofJson value.toJson) value = true ↔ value.Plain) ∧
    ∀ other : Value,
      (value.toJson = other.toJson ↔ value.normalForm = other.normalForm) ∧
      Json.same value.toJson other.toJson = same value.normalForm other.normalForm := by
  rw [ofJson_toJson]
  refine ⟨rfl, toJson_normalForm value, ?_, normalForm_eq_self_iff, ?_, fun other => ?_⟩
  · rw [ofJson_toJson, normalForm_normalForm]
  · constructor
    · exact (plain_normalForm value).of_same
    · intro plain
      rw [plain.normalForm_eq]
      exact plain.same_self
  · refine ⟨toJson_eq_iff, ?_⟩
    rw [← toJson_normalForm value, ← toJson_normalForm other]
    exact (plain_normalForm value).equalBy_toJson (plain_normalForm other)

example :
    ofJson (map [("a", set [bool true, bool true]), ("b", list [number (.infinity false)])]).toJson =
      object [("a", tuple [bool true, bool true]), ("b", tuple [null])] := rfl

end Value

end PluginBridge
