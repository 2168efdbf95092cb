import Mathlib.Data.List.Induction
import Mathlib.Data.List.Sort
import PluginBridge.Fields
import PluginBridge.Proofs.Reading

/-! Members put in order. Those that already are in ascending order are kept as they are; of several
with one name the last is kept. -/

namespace PluginBridge.Fields

variable {α β : Type}

/-- A name above all others goes to the end. -/
theorem insert_above (name : String) (a : α) (members : Fields α)
    (above : ∀ member ∈ members, member.1 < name) :
    Fields.insert name a members = members ++ [(name, a)] := by
  induction members with
  | nil => rfl
  | cons member rest ih =>
    obtain ⟨key, b⟩ := member
    have below : key < name := above (key, b) (List.mem_cons_self ..)
    have notAbove : ¬ name < key := String.lt_asymm below
    have distinct : name ≠ key := fun same => String.lt_irrefl key (same ▸ below)
    rw [Fields.insert, if_neg notAbove, if_neg distinct,
      ih fun other member => above other (List.mem_cons_of_mem _ member)]
    rfl

theorem insertAll_ascending (members added : Fields α)
    (ascending : (members ++ added).Ascending) : members.insertAll added = members ++ added := by
  induction added generalizing members with
  | nil => simp [insertAll]
  | cons member rest ih =>
    have split : (members ++ [member] ++ rest).Ascending := by
      simpa only [List.append_assoc, List.singleton_append] using ascending
    have above : ∀ other ∈ members, other.1 < member.1 := fun other inside =>
      (List.pairwise_append.mp ascending).2.2 other inside member (List.mem_cons_self ..)
    have first : Fields.insert member.1 member.2 members = members ++ [member] :=
      insert_above member.1 member.2 members above
    calc
      members.insertAll (member :: rest)
        = (Fields.insert member.1 member.2 members).insertAll rest := rfl
      _ = (members ++ [member]).insertAll rest := by rw [first]
      _ = members ++ member :: rest := by rw [ih _ split, List.append_assoc, List.singleton_append]

/-- Reading members back one by one gives the members. -/
theorem ofList_ascending (members : Fields α) (ascending : members.Ascending) :
    ofList members = members :=
  insertAll_ascending [] members ascending

theorem mem_of_mem_insert {name : String} {a : α} {members : Fields α} {member : String × α}
    (inside : member ∈ Fields.insert name a members) : member = (name, a) ∨ member ∈ members := by
  induction members with
  | nil => exact .inl (List.mem_singleton.mp inside)
  | cons first rest ih =>
    obtain ⟨key, b⟩ := first
    unfold Fields.insert at inside
    split at inside
    · exact List.mem_cons.mp inside
    · split at inside
      · rcases List.mem_cons.mp inside with same | later
        · exact .inl same
        · exact .inr (List.mem_cons_of_mem _ later)
      · rcases List.mem_cons.mp inside with rfl | later
        · exact .inr (List.mem_cons_self ..)
        · exact (ih later).imp_right (List.mem_cons_of_mem _)

theorem ascending_insert (name : String) (a : α) {members : Fields α}
    (ascending : members.Ascending) : (Fields.insert name a members).Ascending := by
  induction members with
  | nil => exact List.pairwise_singleton _ _
  | cons first rest ih =>
    obtain ⟨key, b⟩ := first
    obtain ⟨above, later⟩ := List.pairwise_cons.mp ascending
    unfold Fields.insert
    split
    next below =>
      refine List.pairwise_cons.mpr ⟨?_, ascending⟩
      intro member inside
      rcases List.mem_cons.mp inside with rfl | behind
      · exact below
      · exact String.lt_trans below (above member behind)
    next notBelow =>
      split
      next same =>
        subst same
        exact List.pairwise_cons.mpr ⟨above, later⟩
      next distinct =>
        have beyond : key < name := by
          by_contra notAbove
          exact distinct
            (String.le_antisymm (String.not_lt.mp notAbove) (String.not_lt.mp notBelow))
        refine List.pairwise_cons.mpr ⟨?_, ih later⟩
        intro member inside
        rcases mem_of_mem_insert inside with rfl | behind
        · exact beyond
        · exact above member behind

theorem insertAll_append (members : Fields α) (first later : List (String × α)) :
    members.insertAll (first ++ later) = (members.insertAll first).insertAll later :=
  List.foldl_append

theorem insertAll_concat (members : Fields α) (pairs : List (String × α)) (pair : String × α) :
    members.insertAll (pairs ++ [pair]) = Fields.insert pair.1 pair.2 (members.insertAll pairs) :=
  insertAll_append members pairs [pair]

theorem ofList_concat (pairs : List (String × α)) (pair : String × α) :
    ofList (pairs ++ [pair]) = Fields.insert pair.1 pair.2 (ofList pairs) :=
  insertAll_concat [] pairs pair

theorem ascending_insertAll {members : Fields α} (ascending : members.Ascending)
    (pairs : List (String × α)) : (members.insertAll pairs).Ascending := by
  induction pairs using List.reverseRecOn with
  | nil => exact ascending
  | append_singleton pairs pair ih =>
    rw [insertAll_concat]
    exact ascending_insert pair.1 pair.2 ih

/-- However members are given, they are kept in ascending order. -/
theorem ascending_ofList (pairs : List (String × α)) : (ofList pairs).Ascending :=
  ascending_insertAll List.Pairwise.nil pairs

theorem mem_of_mem_ofList {pairs : List (String × α)} {member : String × α}
    (inside : member ∈ ofList pairs) : member ∈ pairs := by
  induction pairs using List.reverseRecOn with
  | nil => cases inside
  | append_singleton pairs pair ih =>
    rw [ofList_concat] at inside
    rcases mem_of_mem_insert inside with rfl | before
    · exact List.mem_append_right _ (List.mem_singleton_self _)
    · exact List.mem_append_left _ (ih before)

theorem lookup_cons_eq_ite [DecidableEq β] (sought name : β) (a : α) (pairs : List (β × α)) :
    List.lookup sought ((name, a) :: pairs) =
      if sought = name then some a else pairs.lookup sought := by
  rw [List.lookup_cons]
  by_cases same : sought = name
  · rw [beq_iff_eq.mpr same, if_pos same]
  · rw [beq_false_of_ne same, if_neg same]

/-- A name stands for what was added under it last, or for what it stood for before. -/
theorem find?_insertAll (name : String) (members : Fields α) (pairs : List (String × α)) :
    (members.insertAll pairs).find? name = (pairs.reverse.lookup name).or (members.find? name) := by
  induction pairs using List.reverseRecOn with
  | nil => rfl
  | append_singleton pairs pair ih =>
    obtain ⟨key, a⟩ := pair
    rw [insertAll_concat, List.reverse_concat, lookup_cons_eq_ite]
    by_cases same : name = key
    · subst same
      rw [find?_insert_self, if_pos rfl, Option.some_or]
    · rw [find?_insert_of_ne same, if_neg same, ih]

/-- A name stands for what it was given with last. -/
theorem find?_ofList (name : String) (pairs : List (String × α)) :
    Fields.find? name (ofList pairs) = pairs.reverse.lookup name := by
  rw [ofList, find?_insertAll, find?, Option.or_none]

theorem find?_eq_some_iff {members : Fields α} (ascending : members.Ascending) {name : String}
    {a : α} : members.find? name = some a ↔ (name, a) ∈ members := by
  induction members with
  | nil => simp [find?]
  | cons member rest ih =>
    obtain ⟨key, b⟩ := member
    obtain ⟨above, later⟩ := List.pairwise_cons.mp ascending
    by_cases same : key = name
    · subst same
      have once : (key, a) ∉ rest := fun inside => String.lt_irrefl key (above _ inside)
      simp [find?, once, eq_comm]
    · simp [find?, same, Ne.symm same, ih later]

/-- Members are known by what their names stand for. -/
theorem ext_find? {one other : Fields α} (ascending : one.Ascending) (again : other.Ascending)
    (same : ∀ name, one.find? name = other.find? name) : one = other := by
  have : Std.Antisymm fun left right : String × α => left.1 < right.1 :=
    ⟨fun _ _ below above => absurd above (String.lt_asymm below)⟩
  have : Std.Irrefl fun left right : String × α => left.1 < right.1 := ⟨fun _ => String.lt_irrefl _⟩
  refine ascending.eq_of_mem_iff again fun member => ?_
  rw [← find?_eq_some_iff ascending, ← find?_eq_some_iff again, same]

/-- Of the pairs that are added only the last of each name counts. -/
theorem insertAll_ofList {members : Fields α} (ascending : members.Ascending)
    (pairs : List (String × α)) : members.insertAll (ofList pairs) = members.insertAll pairs := by
  refine ext_find? (ascending_insertAll ascending _) (ascending_insertAll ascending _) fun name => ?_
  rw [find?_insertAll, find?_insertAll, ← find?_ofList, ← find?_ofList,
    ofList_ascending _ (ascending_ofList pairs)]

/-- Where both have a name, what is laid on top counts. -/
theorem find?_overlay (base : Fields α) {top : Fields α} (ascending : top.Ascending)
    (name : String) : (base.overlay top).find? name = (top.find? name).or (base.find? name) := by
  rw [overlay, find?_insertAll, ← find?_ofList, ofList_ascending top ascending]

theorem eq_ofList {members : Fields α} {pairs : List (String × α)} (ascending : members.Ascending)
    (last : ∀ name, members.find? name = pairs.reverse.lookup name) : members = ofList pairs :=
  ext_find? ascending (ascending_ofList pairs) fun name =>
    (last name).trans (find?_ofList name pairs).symm

/-- What is read as members one by one, and made into something, was made of the members. -/
theorem reads_ofList {ε : Type} {reader : Reader ε (List (String × α))} {bytes : Bytes}
    {members : Fields α} (reads : reader.Reads bytes members) (ascending : members.Ascending)
    (make : Fields α → β) : ((make ∘ ofList) <$> reader).Reads bytes (make members) := by
  have made := reads.map (make ∘ ofList)
  rw [Function.comp_apply, ofList_ascending members ascending] at made
  exact made

theorem readsIff_ofList {ε : Type} {reader : Reader ε (List (String × α))} {bytes : Bytes}
    {members : Fields α} {error : ε} {fine : Prop}
    (settled : reader.ReadsIff bytes members error fine) (ascending : members.Ascending)
    (make : Fields α → β) :
    ((make ∘ ofList) <$> reader).ReadsIff bytes (make members) error fine where
  reads holds := reads_ofList (settled.reads holds) ascending make
  fails bad := (settled.fails bad).map _

end PluginBridge.Fields
