import Mathlib.Data.List.TakeWhile
import PluginBridge.Config.Validation
import PluginBridge.Overrides.Precedence
import PluginBridge.Proofs.Acceptance

/-! The overrides of a command win over the configuration of an endpoint, whoever merges them: a
builder gets them merged, a datasource gets both and merges them itself. Of several overrides for
one name the last counts. -/

namespace PluginBridge

namespace Overrides

/-! ## One argument -/

theorem split?_eq_some_iff {written key text : List Char} :
    split? written = some (key, text) ↔ written = key ++ '=' :: text ∧ '=' ∉ key := by
  induction written generalizing key with
  | nil => simp [split?]
  | cons c rest ih =>
    by_cases equals : c = '='
    · subst equals
      rw [split?, if_pos rfl]
      constructor
      · rintro ⟨⟩
        exact ⟨rfl, List.not_mem_nil⟩
      · rintro ⟨same, first⟩
        cases key with
        | nil => rw [(List.cons.inj same).2]
        | cons d key => exact absurd ((List.cons.inj same).1 ▸ List.mem_cons_self ..) first
    · rw [split?, if_neg equals, Option.map_eq_some_iff]
      constructor
      · rintro ⟨⟨front, behind⟩, found, same⟩
        obtain ⟨rfl, rfl⟩ := Prod.mk.inj same
        obtain ⟨rfl, first⟩ := ih.mp found
        exact ⟨rfl, List.not_mem_cons_of_ne_of_not_mem (Ne.symm equals) first⟩
      · rintro ⟨same, first⟩
        cases key with
        | nil => exact absurd (List.cons.inj same).1 equals
        | cons d key =>
          obtain ⟨rfl, rfl⟩ := List.cons.inj same
          exact ⟨(key, text), ih.mpr ⟨rfl, fun inside => first (List.mem_cons_of_mem _ inside)⟩, rfl⟩

theorem split?_eq_none_iff {written : List Char} : split? written = none ↔ '=' ∉ written := by
  induction written with
  | nil => simp [split?]
  | cons c rest ih =>
    by_cases equals : c = '='
    · simp [split?, equals]
    · simp [split?, equals, Ne.symm equals, ih]

theorem trim_eq_empty_iff {text : String} :
    Text.trim text = "" ↔ ∀ c ∈ text.toList, Text.isBlank c = true := by
  have empty : Text.trim text = "" ↔ ∀ c ∈ Text.dropBlank text.toList, Text.isBlank c = true := by
    rw [Text.trim, String.ofList_eq_empty_iff, List.reverse_eq_nil_iff, Text.dropBlank,
      List.dropWhile_eq_nil_iff]
    simp only [List.mem_reverse]
  rw [empty]
  constructor
  · intro blank c inside
    rw [← List.takeWhile_append_dropWhile (p := Text.isBlank) (l := text.toList)] at inside
    rcases List.mem_append.mp inside with front | behind
    · exact List.mem_takeWhile_imp front
    · exact blank c behind
  · exact fun blank c inside => blank c ((List.dropWhile_suffix _).subset inside)

/-- An argument has no equals sign, or it has a first one. -/
theorem plain_or_split (pair : String) : '=' ∉ pair.toList ∨
    ∃ key text : String, pair = key ++ "=" ++ text ∧ '=' ∉ key.toList := by
  cases found : split? pair.toList with
  | none => exact .inl (split?_eq_none_iff.mp found)
  | some parts =>
    obtain ⟨key, text⟩ := parts
    obtain ⟨written, first⟩ := split?_eq_some_iff.mp found
    refine .inr ⟨String.ofList key, String.ofList text, ?_, by simpa using first⟩
    rw [← String.toList_inj]
    simpa using written

theorem split?_of_written {pair key text : String} (written : pair = key ++ "=" ++ text)
    (first : '=' ∉ key.toList) : split? pair.toList = some (key.toList, text.toList) := by
  rw [split?_eq_some_iff, written]
  exact ⟨by simp, first⟩

theorem parsePair_plain {pair : String} (plain : '=' ∉ pair.toList) :
    parsePair pair = .error (.noEquals pair) := by
  rw [parsePair, split?_eq_none_iff.mpr plain]

theorem parsePair_split {pair key text : String} (written : pair = key ++ "=" ++ text)
    (first : '=' ∉ key.toList) :
    parsePair pair =
      if Text.trim key = "" then .error (.emptyKey pair) else .ok (Text.trim key, valueOf text) := by
  rw [parsePair, split?_of_written written first]
  simp only [String.ofList_toList]

theorem parsePair_eq_error_iff {pair : String} {error : OverrideError} :
    parsePair pair = .error error ↔ Faulty pair error := by
  constructor
  · intro failed
    rcases plain_or_split pair with plain | ⟨key, text, written, first⟩
    · rw [parsePair_plain plain] at failed
      obtain rfl := Except.error.inj failed
      exact .noEquals plain
    · rw [parsePair_split written first] at failed
      split_ifs at failed with empty
      obtain rfl := Except.error.inj failed
      exact .emptyKey written first (trim_eq_empty_iff.mp empty)
  · rintro (plain | ⟨written, first, blank⟩)
    · exact parsePair_plain plain
    · rw [parsePair_split written first, if_pos (trim_eq_empty_iff.mpr blank)]

/-- An argument sets at most one name, to one text. -/
theorem Sets.unique {pair name other text another : String} (sets : Sets pair name text)
    (again : Sets pair other another) : name = other ∧ text = another := by
  obtain ⟨key, written, first, rfl⟩ := sets
  obtain ⟨front, spelled, clear, rfl⟩ := again
  have same := (split?_of_written written first).symm.trans (split?_of_written spelled clear)
  obtain ⟨keys, texts⟩ := Prod.mk.inj (Option.some.inj same)
  rw [String.toList_inj] at keys texts
  exact ⟨congrArg _ keys, texts⟩

/-- An argument without a fault sets one name to one text. -/
theorem sets_of_parsePair {pair name : String} {value : Value}
    (parsed : parsePair pair = .ok (name, value)) :
    ∃ text, value = valueOf text ∧
      ∀ {sought other : String}, Sets pair sought other ↔ sought = name ∧ other = text := by
  rcases plain_or_split pair with plain | ⟨key, text, written, first⟩
  · rw [parsePair_plain plain] at parsed
    cases parsed
  · rw [parsePair_split written first] at parsed
    split_ifs at parsed
    obtain ⟨rfl, rfl⟩ := Prod.mk.inj (Except.ok.inj parsed)
    have sets : Sets pair (Text.trim key) text := ⟨key, written, first, rfl⟩
    refine ⟨text, rfl, fun {sought other} => ⟨fun again => again.unique sets, ?_⟩⟩
    rintro ⟨rfl, rfl⟩
    exact sets

/-! ## Many arguments -/

theorem parse_eq_error_iff {pairs : List String} {error : OverrideError} :
    parse pairs = .error error ↔ ∃ before pair after, pairs = before ++ pair :: after ∧
      (∀ earlier ∈ before, ∀ fault, ¬ Faulty earlier fault) ∧ Faulty pair error := by
  have failed : parse pairs = .error error ↔ pairs.mapM parsePair = .error error := by
    rw [parse]
    cases pairs.mapM parsePair with
    | error => exact Iff.rfl
    | ok => exact iff_of_false nofun nofun
  have fine (pair : String) :
      (∃ parsed, parsePair pair = .ok parsed) ↔ ∀ fault, ¬ Faulty pair fault := by
    simp only [← parsePair_eq_error_iff]
    cases parsePair pair <;> simp
  rw [failed, mapM_eq_error_iff]
  simp only [fine, parsePair_eq_error_iff]

theorem exists_parse_ok {pairs : List String}
    (sound : ∀ pair ∈ pairs, ∀ error, ¬ Faulty pair error) :
    ∃ parsed, pairs.map parsePair = parsed.map .ok ∧ parse pairs = .ok (Fields.ofList parsed) := by
  cases read : pairs.mapM parsePair with
  | ok parsed => exact ⟨parsed, mapM_eq_ok_iff.mp read, by rw [parse, read]; rfl⟩
  | error error =>
    obtain ⟨before, pair, after, rfl, -, failed⟩ := mapM_eq_error_iff.mp read
    have faulty := parsePair_eq_error_iff.mp failed
    exact absurd faulty (sound pair (List.mem_append_right _ (List.mem_cons_self ..)) error)

theorem setLast_concat {pairs : List String} {pair name text : String} :
    SetLast (pairs ++ [pair]) name text ↔
      Sets pair name text ∨ ((∀ other, ¬ Sets pair name other) ∧ SetLast pairs name text) :=
  last_concat

/-- A name stands for what the last argument sets it to. -/
theorem lookup_eq_some_iff {pairs : List String} {parsed : List (String × Value)}
    (read : pairs.map parsePair = parsed.map .ok) {name : String} {value : Value} :
    parsed.reverse.lookup name = some value ↔
      ∃ text, SetLast pairs name text ∧ value = valueOf text := by
  induction pairs using List.reverseRecOn generalizing parsed with
  | nil =>
    obtain rfl : parsed = [] := List.map_eq_nil_iff.mp read.symm
    refine iff_of_false nofun ?_
    rintro ⟨text, ⟨before, pair, after, same, _⟩, _⟩
    exact List.append_ne_nil_of_right_ne_nil before (List.cons_ne_nil pair after) same.symm
  | append_singleton pairs pair ih =>
    rw [List.map_append, List.map_singleton] at read
    obtain ⟨earlier, _, rfl, before, last⟩ := List.map_eq_append_iff.mp read.symm
    obtain ⟨⟨key, found⟩, rfl, parse⟩ := List.map_eq_singleton_iff.mp last
    obtain ⟨text, rfl, only⟩ := sets_of_parsePair parse.symm
    rw [List.reverse_concat, Fields.lookup_cons_eq_ite]
    simp only [setLast_concat, only]
    by_cases same : name = key
    · subst same
      simp [eq_comm]
    · rw [if_neg same, ih before.symm]
      simp [same]

theorem exists_setLast_iff {pairs : List String} {name : String} :
    (∃ text, SetLast pairs name text) ↔ ∃ pair ∈ pairs, ∃ text, Sets pair name text := by
  induction pairs using List.reverseRecOn with
  | nil => simp [SetLast]
  | append_singleton pairs pair ih =>
    simp only [setLast_concat, exists_or, exists_and_left, ih, List.mem_append, List.mem_singleton,
      or_and_right, exists_eq_left]
    by_cases sets : ∃ text, Sets pair name text
    · simp [sets]
    · simp [not_exists.mp sets]

theorem lookup_eq_none_iff {pairs : List String} {parsed : List (String × Value)}
    (read : pairs.map parsePair = parsed.map .ok) {name : String} :
    parsed.reverse.lookup name = none ↔ ∀ pair ∈ pairs, ∀ text, ¬ Sets pair name text := by
  rw [Option.eq_none_iff_forall_ne_some]
  constructor
  · intro absent pair inside text sets
    obtain ⟨last, set⟩ := exists_setLast_iff.mpr ⟨pair, inside, text, sets⟩
    exact absent _ ((lookup_eq_some_iff read).mpr ⟨last, set, rfl⟩)
  · intro unset value found
    obtain ⟨text, last, _⟩ := (lookup_eq_some_iff read).mp found
    obtain ⟨pair, inside, other, sets⟩ := exists_setLast_iff.mp ⟨text, last⟩
    exact unset pair inside other sets

/-- On top of members a name stands for what the last argument sets it to, or for what it stood
for. -/
theorem find?_insertAll_iff {pairs : List String} {parsed : List (String × Value)}
    (read : pairs.map parsePair = parsed.map .ok) (base : Fields Value) {name : String}
    {value : Value} :
    (base.insertAll parsed).find? name = some value ↔
      (∃ text, SetLast pairs name text ∧ value = valueOf text) ∨
      ((∀ pair ∈ pairs, ∀ text, ¬ Sets pair name text) ∧ base.find? name = some value) := by
  rw [Fields.find?_insertAll, Option.or_eq_some_iff, lookup_eq_some_iff read, lookup_eq_none_iff read]

end Overrides

namespace StaticDatasource

/-! ## Many configurations -/

theorem given_append (xs ys : List Value) : given (xs ++ ys) = given xs ++ given ys :=
  List.flatMap_append

/-- Configurations behind others are laid over what those come to. -/
theorem combined_append (xs ys : List Value) :
    combined (xs ++ ys) = (combined xs).overlay (combined ys) := by
  have later : combined (xs ++ ys) = (combined xs).insertAll (given ys) := by
    rw [combined, given_append, Fields.ofList, Fields.insertAll_append]
    rfl
  rw [later, ← Fields.insertAll_ofList (ascending_combined xs)]
  rfl

theorem combined_pair {base : Fields Value} (ascending : base.Ascending) (top : Fields Value) :
    combined [.object base, .object top] = base.overlay top := by
  have all : given [.object base, .object top] = base ++ top := by
    simp [given, attributes?, Value.members?]
  have first := Fields.ofList_ascending base ascending
  rw [Fields.ofList] at first
  rw [combined, all, Fields.ofList, Fields.insertAll_append, first, Fields.overlay]

theorem merge_pair {base : Fields Value} (ascending : base.Ascending) (top : Fields Value) :
    merge 0 [] [.object base, .object top] = .ok (base.overlay top) := by
  rw [← combined_pair ascending]
  exact merge_combinable (by simp [Combinable, attributes?, Value.members?])

end StaticDatasource

theorem Endpoint.configValue_of_valid {endpoint : Endpoint} (valid : endpoint.validate = .ok ()) :
    ∃ members : Fields Value, endpoint.configValue = .object members := by
  unfold Endpoint.validate at valid
  split_ifs at valid
  unfold Endpoint.configValue
  split at valid
  next absent => exact ⟨[], by rw [absent]⟩
  next members given => exact ⟨_, by rw [given]; rfl⟩
  next => cases valid

namespace Overrides

open StaticDatasource (Combinable)

/-- The arguments are refused exactly if one of them has no equals sign or only blanks in front of
its first one, and the first such argument is named. Otherwise it makes no difference who merges the
configuration of the endpoint with the overrides: a name stands for the value that the last argument
for it gives, and else for what it stands for in the configuration. Configurations that are merged
may be merged in two portions first; of the portions, the later one wins. -/
theorem merged_alike (endpoint : Endpoint) (valid : endpoint.validate = .ok ())
    (ordered : endpoint.configValue.Ordered) (pairs : List String) :
    (∀ error, parse pairs = .error error ↔ ∃ before pair after, pairs = before ++ pair :: after ∧
      (∀ earlier ∈ before, ∀ fault, ¬ Faulty earlier fault) ∧ Faulty pair error) ∧
    ((∀ pair ∈ pairs, ∀ error, ¬ Faulty pair error) →
      ∃ overrides attributes : Fields Value, parse pairs = .ok overrides ∧
        merge endpoint.configValue (.object overrides) = .object attributes ∧
        StaticDatasource.merge 0 [] [endpoint.configValue, .object overrides] = .ok attributes ∧
        attributes.Ascending ∧
        ∀ name value, attributes.find? name = some value ↔
          (∃ text, SetLast pairs name text ∧ value = valueOf text) ∨
          ((∀ pair ∈ pairs, ∀ text, ¬ Sets pair name text) ∧
            endpoint.configValue.get? name = some value)) ∧
    ∀ xs ys, Combinable xs → Combinable ys → ∃ x y whole : Fields Value,
      StaticDatasource.merge 0 [] xs = .ok x ∧ StaticDatasource.merge 0 [] ys = .ok y ∧
      StaticDatasource.merge 0 [] (xs ++ ys) = .ok whole ∧
      StaticDatasource.merge 0 [] [.object x, .object y] = .ok whole ∧
      ∀ name, whole.find? name = (y.find? name).or (x.find? name) := by
  refine ⟨fun error => parse_eq_error_iff, ?_, ?_⟩
  · intro sound
    obtain ⟨parsed, read, accepted⟩ := exists_parse_ok sound
    obtain ⟨base, same⟩ := Endpoint.configValue_of_valid valid
    rw [same] at ordered ⊢
    have laid : base.overlay (Fields.ofList parsed) = base.insertAll parsed :=
      Fields.insertAll_ofList ordered.1 parsed
    refine ⟨Fields.ofList parsed, base.insertAll parsed, accepted, congrArg Value.object laid, ?_,
      Fields.ascending_insertAll ordered.1 parsed, fun name value => find?_insertAll_iff read base⟩
    rw [StaticDatasource.merge_pair ordered.1, laid]
  · intro xs ys combinable others
    have ascending := StaticDatasource.ascending_combined
    refine ⟨_, _, _, StaticDatasource.merge_combinable combinable,
      StaticDatasource.merge_combinable others,
      StaticDatasource.merge_combinable (List.forall_mem_append.mpr ⟨combinable, others⟩), ?_, ?_⟩
    · rw [StaticDatasource.merge_pair (ascending xs), StaticDatasource.combined_append]
    · intro name
      rw [StaticDatasource.combined_append, Fields.find?_overlay _ (ascending ys)]

section Example

def configured : Endpoint where
  name := "lookup"
  capability := .datasource
  implementation := "static"
  config := .object [("keep", .bool false), ("name", .string "a")]

/-- Two arguments for one name, and a text with an equals sign. -/
def arguments : List String :=
  ["name=1", "\tname =true", "extra=a=b"]

theorem arguments_sound : ∀ pair ∈ arguments, ∀ error, ¬ Faulty pair error := by
  simp only [arguments, List.forall_mem_cons, ← parsePair_eq_error_iff]
  refine ⟨nofun, nofun, nofun, List.forall_mem_nil _⟩

theorem merged_alike_configured :
    parse ["a=1", " =2", "b"] = .error (.emptyKey " =2") ∧
    ∃ overrides attributes : Fields Value, parse arguments = .ok overrides ∧
      merge configured.configValue (.object overrides) = .object attributes ∧
      StaticDatasource.merge 0 [] [configured.configValue, .object overrides] = .ok attributes ∧
      attributes.find? "name" = some (.bool true) ∧
      attributes.find? "extra" = some (.string "a=b") ∧
      attributes.find? "keep" = some (.bool false) := by
  have valid : configured.validate = .ok () := by decide
  have ordered : configured.configValue.Ordered := by
    refine ⟨by decide, trivial, trivial, trivial⟩
  obtain ⟨refused, -, -⟩ := merged_alike configured valid ordered ["a=1", " =2", "b"]
  obtain ⟨-, merges, -⟩ := merged_alike configured valid ordered arguments
  obtain ⟨overrides, attributes, parsed, host, plugin, -, stands⟩ := merges arguments_sound
  have name : Sets "\tname =true" "name" "true" := ⟨"\tname ", rfl, by decide, by decide⟩
  have extra : Sets "extra=a=b" "extra" "a=b" := ⟨"extra", rfl, by decide, by decide⟩
  have first : Sets "name=1" "name" "1" := ⟨"name", rfl, by decide, by decide⟩
  have fault : Faulty " =2" (.emptyKey " =2") := by
    have written : " =2" = " " ++ "=" ++ "2" := rfl
    exact .emptyKey written (by decide) (List.forall_mem_singleton.mpr rfl)
  refine ⟨(refused _).mpr ⟨["a=1"], _, ["b"], rfl, ?_, fault⟩, overrides, attributes, parsed, host,
    plugin, (stands _ _).mpr (.inl ⟨"true", ⟨["name=1"], _, ["extra=a=b"], rfl, name, ?_⟩, rfl⟩),
    (stands _ _).mpr (.inl ⟨"a=b", ⟨arguments.take 2, _, [], rfl, extra, nofun⟩, rfl⟩),
    (stands _ _).mpr (.inr ⟨?_, rfl⟩)⟩
  · simp only [List.forall_mem_singleton, ← parsePair_eq_error_iff]
    exact nofun
  · rw [List.forall_mem_singleton]
    exact fun other sets => absurd (extra.unique sets).1 (by decide)
  · simp only [arguments, List.forall_mem_cons]
    exact ⟨fun _ sets => absurd (first.unique sets).1 (by decide),
      fun _ sets => absurd (name.unique sets).1 (by decide),
      fun _ sets => absurd (extra.unique sets).1 (by decide), List.forall_mem_nil _⟩

end Example

end Overrides

end PluginBridge
