import PluginBridge.Proofs.Fields
import PluginBridge.Proofs.Sequences
import PluginBridge.Proofs.Validation
import PluginBridge.Sample.Acceptance

/-! A static datasource accepts exactly what validation against its specification accepts. The
datasource goes through the attributes that it was given, validation through those that it knows;
both go in ascending order of the names, so they meet the same mismatch first. An attribute that is
null passes both. -/

namespace PluginBridge

namespace StaticDatasource

open Spec

/-! ## Merging -/

theorem merge_cons {config : Value} {members : Fields Value}
    (gives : attributes? config = some members) (index : Nat) (merged : Fields Value)
    (rest : List Value) :
    merge index merged (config :: rest) = merge (index + 1) (merged.overlay members) rest := by
  cases config <;> simp only [attributes?, Value.members?, Option.some.injEq, reduceCtorEq] at gives
  all_goals
    subst gives
    rfl

theorem merge_foreign {config : Value} (foreign : attributes? config = none) (index : Nat)
    (merged : Fields Value) (rest : List Value) :
    merge index merged (config :: rest) =
      .error (.text s!"configuration {index} must be an object, got {config.ty.expression}") := by
  cases config <;> first | rfl | cases foreign

theorem given_cons {config : Value} {members : Fields Value}
    (gives : attributes? config = some members) (rest : List Value) :
    given (config :: rest) = members ++ given rest := by
  rw [given, List.flatMap_cons, gives, Option.getD_some, given]

theorem merge_append {before : List Value} (combinable : Combinable before) (index : Nat)
    (merged : Fields Value) (rest : List Value) :
    merge index merged (before ++ rest) =
      merge (index + before.length) (merged.insertAll (given before)) rest := by
  induction before generalizing index merged with
  | nil => rfl
  | cons config before ih =>
    obtain ⟨first, later⟩ := List.forall_mem_cons.mp combinable
    obtain ⟨members, gives⟩ := Option.ne_none_iff_exists'.mp first
    have order : index + 1 + before.length = index + (config :: before).length := by
      rw [List.length_cons]
      omega
    have grown : (merged.overlay members).insertAll (given before) =
        merged.insertAll (given (config :: before)) := by
      rw [given_cons gives, Fields.insertAll_append, Fields.overlay]
    rw [List.cons_append, merge_cons gives, ih later, order, grown]

theorem merge_combinable {configs : List Value} (combinable : Combinable configs) :
    merge 0 [] configs = .ok (combined configs) := by
  have whole := merge_append combinable 0 [] []
  rwa [List.append_nil] at whole

/-- Configurations that cannot be combined have a first one that is to blame. -/
theorem combinable_or_foreign (configs : List Value) :
    Combinable configs ∨ ∃ before config after, configs = before ++ config :: after ∧
      Combinable before ∧ attributes? config = none := by
  induction configs with
  | nil => exact .inl (List.forall_mem_nil _)
  | cons config rest ih =>
    by_cases foreign : attributes? config = none
    · exact .inr ⟨[], config, rest, rfl, List.forall_mem_nil _, foreign⟩
    · rcases ih with combinable | ⟨before, other, after, rfl, combinable, blamed⟩
      · exact .inl (List.forall_mem_cons.mpr ⟨foreign, combinable⟩)
      · exact .inr ⟨config :: before, other, after, rfl,
          List.forall_mem_cons.mpr ⟨foreign, combinable⟩, blamed⟩

/-! ## Checking -/

/-- All attributes of the specification are optional and have the names of their outputs. -/
theorem spec_plain {name : String} {part : Spec} (inside : (name, part) ∈ spec) :
    ∃ ty, part = .attr name ty false := by
  have listed := Fields.mem_of_mem_ofList inside
  simp only [List.mem_cons, List.not_mem_nil, or_false, Prod.mk.injEq] at listed
  rcases listed with ⟨rfl, rfl⟩ | ⟨rfl, rfl⟩ | ⟨rfl, rfl⟩ | ⟨rfl, rfl⟩ <;> exact ⟨_, rfl⟩

theorem spec_ascending : spec.Ascending :=
  Fields.ascending_ofList _

def verifyMember (member : String × Value) : Except Violation Unit :=
  match spec.find? member.1 with
  | some (.attr _ ty _) =>
    if member.2.conforms ty then .ok () else .error (.typeMismatch member.1 ty member.2.ty)
  | _ => .ok ()

def refusal : Violation → Failure
  | .typeMismatch name expected found =>
    .text s!"attribute `{name}` must be {expected.expression}, got {found.expression}"
  | other => .text other.message

theorem checkMember_eq (member : String × Value) :
    checkMember member = (verifyMember member).mapError refusal := by
  unfold checkMember verifyMember
  cases spec.find? member.1 with
  | none => rfl
  | some entry =>
    cases entry with
    | attr =>
      dsimp only
      split_ifs <;> rfl
    | _ => rfl

/-- An attribute that is known and has the wrong type. -/
def Mistyped (member : String × Value) (violation : Violation) : Prop :=
  ∃ ty, spec.find? member.1 = some (.attr member.1 ty false) ∧ member.2.conforms ty = false ∧
    violation = .typeMismatch member.1 ty member.2.ty

theorem reports_member (member : String × Value) :
    Reports (fun place violation => Mistyped member violation ∧ place = [])
      (verifyMember member) := by
  unfold verifyMember
  cases known : spec.find? member.1 with
  | none =>
    refine reports_none fun place violation => ?_
    rintro ⟨⟨ty, found, _⟩, _⟩
    cases known.symm.trans found
  | some entry =>
    obtain ⟨ty, rfl⟩ := spec_plain ((Fields.find?_eq_some_iff spec_ascending).mp known)
    dsimp only
    rw [← ite_not]
    refine reports_if _ fun place violation => ?_
    rw [Bool.not_eq_true]
    constructor
    · rintro ⟨⟨_, found, refused, rfl⟩, rfl⟩
      cases known.symm.trans found
      exact ⟨refused, rfl, rfl⟩
    · rintro ⟨refused, rfl, rfl⟩
      exact ⟨⟨ty, known, refused, rfl⟩, rfl⟩

/-- Whether one goes through the members or through the specification, the violations are the
same. -/
theorem violates_spec_iff {members : Fields Value} (ascending : members.Ascending) {place : Place}
    {violation : Violation} :
    Violates (.object spec) members place violation ↔
      ∃ member ∈ members, Under (.output member.1)
        (fun place violation => Mistyped member violation ∧ place = []) place violation := by
  rw [violates_object]
  constructor
  · rintro ⟨⟨name, part⟩, known, place, rfl, violates⟩
    obtain ⟨ty, rfl⟩ := spec_plain known
    cases violates with
    | @mistyped _ _ _ _ value held refused =>
      exact ⟨(name, value), (Fields.find?_eq_some_iff ascending).mp held.1, [], rfl,
        ⟨ty, (Fields.find?_eq_some_iff spec_ascending).mpr known, refused, rfl⟩, rfl⟩
  · rintro ⟨⟨name, value⟩, inside, place, rfl, ⟨ty, known, refused, rfl⟩, rfl⟩
    have held : Holds name members value := by
      refine ⟨(Fields.find?_eq_some_iff ascending).mpr inside, ?_⟩
      rintro rfl
      cases refused
    exact ⟨_, (Fields.find?_eq_some_iff spec_ascending).mp known, [], rfl, .mistyped held refused⟩

theorem reports_members {members : Fields Value} (ascending : members.Ascending) :
    Reports (Violates (.object spec) members) (members.forM verifyMember) := by
  have reports := reports_each (fun member : String × Value => .output member.1) ascending
    (fun _ _ => nofun) fun member _ => reports_member member
  exact reports.congr fun _ _ => violates_spec_iff ascending

theorem reports_validate (members : Fields Value) :
    Reports (Violates (.object spec) members) (spec.validate (.object members)) := by
  refine reports_entries spec_ascending fun (name, part) inside => ?_
  obtain ⟨ty, rfl⟩ := spec_plain inside
  exact reports_attribute name ty false members

theorem validate_eq_forM {members : Fields Value} (ascending : members.Ascending) :
    spec.validate (.object members) = members.forM verifyMember :=
  (reports_validate members).unique (reports_members ascending)

theorem mistyped_of_validate {members : Fields Value} (ascending : members.Ascending)
    {violation : Violation} (refused : spec.validate (.object members) = .error violation) :
    ∃ member ∈ members, Mistyped member violation := by
  obtain ⟨place, ⟨violates, _⟩, _⟩ := (reports_validate members).error_iff.mp refused
  obtain ⟨member, inside, _, _, mistyped, _⟩ := (violates_spec_iff ascending).mp violates
  exact ⟨member, inside, mistyped⟩

/-! ## Accepting -/

theorem ascending_combined (configs : List Value) : (combined configs).Ascending :=
  Fields.ascending_ofList _

theorem accept_foreign {before : List Value} (combinable : Combinable before) {config : Value}
    (foreign : attributes? config = none) (after : List Value) :
    accept (before ++ config :: after) = .error (.text
      s!"configuration {before.length} must be an object, got {config.ty.expression}") := by
  rw [accept, merge_append combinable, merge_foreign foreign, Nat.zero_add]
  rfl

theorem accept_combinable {configs : List Value} (combinable : Combinable configs) :
    accept configs =
      match spec.validate (.object (combined configs)) with
      | .ok () => .ok (combined configs)
      | .error violation => .error (refusal violation) := by
  have checked : (combined configs).forM checkMember =
      (spec.validate (.object (combined configs))).mapError refusal := by
    rw [validate_eq_forM (ascending_combined configs), ← forM_mapError]
    exact congrArg _ (funext checkMember_eq)
  rw [accept, merge_combinable combinable]
  change ((combined configs).forM checkMember >>= fun _ => .ok (combined configs)) = _
  rw [checked]
  cases spec.validate (.object (combined configs)) <;> rfl

theorem configure_foreign {before : List Value} (combinable : Combinable before) {config : Value}
    (foreign : attributes? config = none) (after : List Value) (state : Fields Value) :
    configure (before ++ config :: after) state = (state, .error (.text
      s!"configuration {before.length} must be an object, got {config.ty.expression}")) := by
  rw [configure, accept_foreign combinable foreign]

theorem configure_of_valid {configs : List Value} (combinable : Combinable configs)
    (valid : spec.validate (.object (combined configs)) = .ok ()) (state : Fields Value) :
    configure configs state = (combined configs, .ok ()) := by
  rw [configure, accept_combinable combinable, valid]

theorem configure_of_invalid {configs : List Value} (combinable : Combinable configs)
    {violation : Violation} (invalid : spec.validate (.object (combined configs)) = .error violation)
    (state : Fields Value) : configure configs state = (state, .error (refusal violation)) := by
  rw [configure, accept_combinable combinable, invalid]

/-- Configuring a static datasource fails exactly if one of the configurations is no object, map or
null, or else if validation rejects the attributes that they give together. It names the first such
configuration, or the attribute that validation names. If it fails, what was stored stays as it is;
if not, the attributes are stored. -/
theorem configure_agrees_with_validation (configs : List Value) (state : Fields Value) :
    let configured := staticDatasource.configure configs state
    let verdict := (staticDatasource.outputSpec state).validate (.object (combined configs))
    ((∃ failure, configured.2 = .error failure) ↔
      (∃ config ∈ configs, attributes? config = none) ∨ ∃ violation, verdict = .error violation) ∧
    (∀ before config after, configs = before ++ config :: after → Combinable before →
      attributes? config = none → configured = (state, .error (.text
        s!"configuration {before.length} must be an object, got {config.ty.expression}"))) ∧
    (Combinable configs →
      (verdict = .ok () → configured = (combined configs, .ok ())) ∧
      ∀ violation, verdict = .error violation → ∃ name expected found,
        violation = .typeMismatch name expected found ∧
        configured = (state, .error (.text
          s!"attribute `{name}` must be {expected.expression}, got {found.expression}"))) := by
  intro configured verdict
  refine ⟨?_, ?_, fun combinable => ⟨fun valid => configure_of_valid combinable valid state, ?_⟩⟩
  · rcases combinable_or_foreign configs with combinable | ⟨before, config, after, rfl, fine, foreign⟩
    · have none : ¬ ∃ config ∈ configs, attributes? config = none :=
        fun ⟨config, inside, foreign⟩ => combinable config inside foreign
      rw [or_iff_right none]
      cases judged : verdict with
      | ok =>
        have taken : configured.2 = .ok () :=
          congrArg Prod.snd (configure_of_valid combinable judged state)
        rw [taken]
        exact iff_of_false nofun nofun
      | error violation =>
        have refused := congrArg Prod.snd (configure_of_invalid combinable judged state)
        exact iff_of_true ⟨_, refused⟩ ⟨_, rfl⟩
    · have blamed := congrArg Prod.snd (configure_foreign fine foreign after state)
      exact iff_of_true ⟨_, blamed⟩
        (.inl ⟨config, List.mem_append_right _ (List.mem_cons_self ..), foreign⟩)
  · rintro before config after rfl fine foreign
    exact configure_foreign fine foreign after state
  · intro violation invalid
    obtain ⟨member, _, ty, _, _, rfl⟩ := mistyped_of_validate (ascending_combined configs) invalid
    exact ⟨_, _, _, rfl, configure_of_invalid combinable invalid state⟩

section Example

/-- The second one replaces the name of the first. -/
def renamed : List Value :=
  [.map [("name", .string "a")], .null, .object [("delay_ms", .bool true), ("name", .number ⟨0⟩)]]

theorem configure_agrees_renamed :
    Combinable renamed ∧
    staticDatasource.configure renamed [] =
      ([], .error (.text "attribute `delay_ms` must be number, got bool")) ∧
    staticDatasource.configure (renamed.take 2) [] = ([("name", .string "a")], .ok ()) ∧
    staticDatasource.configure (renamed ++ [.list [], .bool true]) [] =
      ([], .error (.text "configuration 3 must be an object, got list(any)")) := by
  have combinable : Combinable renamed := by simp [Combinable, renamed, attributes?, Value.members?]
  have fewer : Combinable (renamed.take 2) :=
    fun config inside => combinable config (List.mem_of_mem_take inside)
  obtain ⟨_, _, judged⟩ := configure_agrees_with_validation renamed []
  obtain ⟨_, _, passes⟩ := configure_agrees_with_validation (renamed.take 2) []
  obtain ⟨_, blamed, _⟩ := configure_agrees_with_validation (renamed ++ [.list [], .bool true]) []
  refine ⟨combinable, ?_, (passes fewer).1 (by decide), blamed renamed _ _ rfl combinable rfl⟩
  have invalid : spec.validate (.object (combined renamed)) =
      .error (.typeMismatch "delay_ms" .number .bool) := by decide
  obtain ⟨_, _, _, same, refused⟩ := (judged combinable).2 _ invalid
  cases same
  exact refused

end Example

/-! ## Executing what was accepted -/

theorem accept_eq_ok {configs : List Value} {merged : Fields Value}
    (taken : accept configs = .ok merged) :
    merged = combined configs ∧ spec.validate (.object merged) = .ok () := by
  rcases combinable_or_foreign configs with combinable | ⟨before, config, after, rfl, fine, foreign⟩
  · rw [accept_combinable combinable] at taken
    cases valid : spec.validate (.object (combined configs)) with
    | ok =>
      rw [valid] at taken
      obtain rfl := Except.ok.inj taken
      exact ⟨rfl, valid⟩
    | error =>
      rw [valid] at taken
      cases taken
  · rw [accept_foreign fine foreign] at taken
    cases taken

/-- A call leaves the attributes of what it makes the datasource take, if it does, and else those
that were there. -/
theorem direct_state (operation : Operation) (state : Fields Value) :
    (operation.direct staticDatasource state).1 = ((accepted? operation).map combined).getD state := by
  cases operation with
  | configure configs =>
    change (configure configs state).1 = _
    rw [configure, accepted?]
    cases taken : accept configs with
    | ok merged =>
      obtain ⟨rfl, _⟩ := accept_eq_ok taken
      rfl
    | error => rfl
  | _ => rfl

theorem directAll_state (operations : List Operation) (state : Fields Value) :
    (Operation.directAll staticDatasource state operations).1 =
      ((lastAccepted? operations).map combined).getD state := by
  induction operations generalizing state with
  | nil => rfl
  | cons operation rest ih =>
    have last : lastAccepted? (operation :: rest) = (lastAccepted? rest).or (accepted? operation) := by
      rw [lastAccepted?, List.reverse_cons, List.findSome?_append, List.findSome?_singleton]
      rfl
    rw [Operation.directAll, ih, direct_state, last]
    cases lastAccepted? rest <;> rfl

theorem valid_of_lastAccepted {operations : List Operation} {configs : List Value}
    (last : lastAccepted? operations = some configs) :
    spec.validate (.object (combined configs)) = .ok () := by
  obtain ⟨operation, _, taken⟩ := List.exists_of_findSome?_eq_some last
  cases operation with
  | configure given =>
    simp only [accepted?, Option.ite_none_right_eq_some, Option.some.injEq] at taken
    obtain ⟨taken, rfl⟩ := taken
    cases accepted : accept given with
    | ok merged =>
      obtain ⟨rfl, valid⟩ := accept_eq_ok accepted
      exact valid
    | error =>
      rw [accepted] at taken
      cases taken
  | _ => cases taken

/-- A name that passes validation is a text, or null. -/
theorem name_of_valid {members : Fields Value} (ascending : members.Ascending)
    (valid : spec.validate (.object members) = .ok ()) {value : Value}
    (held : members.find? "name" = some value) : value = .null ∨ ∃ text, value = .string text := by
  have known : spec.find? "name" = some (.attr "name" .string false) := by
    rw [spec, Fields.find?_ofList]
    rfl
  rw [validate_eq_forM ascending, forM_eq_ok_iff] at valid
  have verified := valid ("name", value) ((Fields.find?_eq_some_iff ascending).mp held)
  simp only [verifyMember, known] at verified
  cases value with
  | null => exact .inl rfl
  | string text => exact .inr ⟨text, rfl⟩
  | _ => cases verified

/-- Only a null under `name` is blamed for not being a text, and only if there is something to look
it up in. -/
theorem execute_blames_iff {members : Fields Value} (ascending : members.Ascending)
    (valid : spec.validate (.object members) = .ok ()) :
    execute members = .error (.text "attribute `name` must be a string") ↔
      (∃ table, members.find? "lookup" = some table) ∧ members.find? "name" = some .null := by
  unfold execute
  cases members.find? "lookup" with
  | none => cases members.find? "value" <;> simp
  | some table =>
    cases held : members.find? "name" with
    | none => cases members.find? "value" <;> simp
    | some name =>
      rcases name_of_valid ascending valid held with rfl | ⟨text, rfl⟩
      · simp [Value.text?]
      · simp only [Value.text?]
        cases table.get? text with
        | none =>
          have other : s!"no record for `{text}`" ≠ "attribute `name` must be a string" := by
            intro same
            have first := congrArg (·.toList.head?) same
            simp [toString] at first
          simp [other]
        | some value => simp

/-- After any calls, an execution fails for want of a text under `name` exactly if the configurations
that were accepted last give something to look up in and null for the name. -/
theorem execute_blames_name_iff (operations : List Operation) :
    let state := (Operation.directAll staticDatasource [] operations).1
    (staticDatasource.execute state).2 = .error (.text "attribute `name` must be a string") ↔
      ∃ configs table, lastAccepted? operations = some configs ∧
        (combined configs).find? "lookup" = some table ∧
        (combined configs).find? "name" = some .null := by
  intro state
  have stored : state = _ := directAll_state operations []
  change execute state = _ ↔ _
  rw [stored]
  cases last : lastAccepted? operations with
  | none => simp [execute, Fields.find?]
  | some configs =>
    rw [Option.map_some, Option.getD_some,
      execute_blames_iff (ascending_combined configs) (valid_of_lastAccepted last)]
    simp

def nameless : Value :=
  .object [("lookup", .object []), ("name", .null)]

/-- The null counts as no name in validation and is accepted, and then the execution demands that it
be a text. -/
theorem nameless_blamed :
    present? "name" (combined [nameless]) = none ∧
      (staticDatasource.configure [nameless] []).2 = .ok () ∧
      (staticDatasource.execute (staticDatasource.configure [nameless] []).1).2 =
        .error (.text "attribute `name` must be a string") := by
  exact ⟨rfl, rfl, rfl⟩

end StaticDatasource

end PluginBridge
