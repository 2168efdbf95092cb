import Mathlib.Data.List.DropRight
import PluginBridge.Proofs.TypeExpression
import PluginBridge.Ty.Grammar

/-! Tokens at the front of a text. Each way in which the parser of type expressions takes something off
a text takes one token that the text is spelled from. -/

namespace PluginBridge.Ty

/-! ## Blank characters -/

def Blank (gap : List Char) : Prop :=
  ∀ c ∈ gap, Text.isBlank c = true

theorem exists_gap (text : List Char) : ∃ gap, Blank gap ∧ text = gap ++ Text.dropBlank text :=
  ⟨text.takeWhile Text.isBlank, fun _ => List.mem_takeWhile_imp,
    List.takeWhile_append_dropWhile.symm⟩

theorem dropBlank_gap {gap : List Char} (blank : Blank gap) (text : List Char) :
    Text.dropBlank (gap ++ text) = Text.dropBlank text :=
  List.dropWhile_append_of_pos blank

/-- What is left begins with no blank character. -/
theorem isBlank_of_dropBlank {text rest : List Char} {c : Char}
    (dropped : Text.dropBlank text = c :: rest) : Text.isBlank c = false := by
  have visible := List.head?_dropWhile_not Text.isBlank text
  rw [← Text.dropBlank, dropped] at visible
  simpa using visible

theorem closes_of_blank {gap : List Char} (blank : Blank gap) : Closes gap := by
  intro c first
  by_contra named
  rw [Bool.not_eq_false] at named
  have visible := isBlank_of_isNameChar named
  rw [blank c (List.mem_of_mem_head? first)] at visible
  cases visible

theorem eat_eq_some_iff {token : Char} {text rest : List Char} :
    eat? token text = some rest ↔ Text.dropBlank text = token :: rest := by
  unfold eat?
  split
  next c after dropped =>
    split
    next same =>
      subst same
      simp [dropped]
    next distinct => simp [dropped, distinct]
  next dropped => simp [dropped]

theorem eat_eq_none_iff {sign : Char} {text : List Char} :
    eat? sign text = none ↔ (Text.dropBlank text).head? ≠ some sign := by
  unfold eat?
  split
  next c rest dropped => simp [dropped]
  next dropped => simp [dropped]

/-- Only one sign can come next. -/
theorem eat_eq_none {token other : Char} {text rest : List Char} (distinct : token ≠ other)
    (eaten : eat? token text = some rest) : eat? other text = none := by
  rw [eat_eq_some_iff] at eaten
  simp [eat?, eaten, distinct]

/-! ## Names in quotes -/

theorem quotedName_eq_some_iff {text name rest : List Char} :
    quotedName? text = some (name, rest) ↔
      ∃ written, Quotes written name ∧ text = written ++ '"' :: rest := by
  constructor
  · intro read
    fun_induction quotedName? text generalizing name rest with
    | case1 => cases read
    | case2 after =>
      cases read
      exact ⟨[], .nil, rfl⟩
    | case3 c after ih =>
      obtain ⟨⟨inner, behind⟩, inside, same⟩ := Option.map_eq_some_iff.mp read
      cases same
      obtain ⟨written, quotes, rfl⟩ := ih inside
      exact ⟨_, .escaped c quotes, rfl⟩
    | case4 => cases read
    | case5 c after unquoted _ unescaped ih =>
      obtain ⟨⟨inner, behind⟩, inside, same⟩ := Option.map_eq_some_iff.mp read
      cases same
      obtain ⟨written, quotes, rfl⟩ := ih inside
      exact ⟨_, .plain unquoted unescaped quotes, rfl⟩
  · rintro ⟨written, quotes, rfl⟩
    induction quotes with
    | nil => simp [quotedName?]
    | plain unquoted unescaped rest ih => simp [quotedName?, unescaped, ih]
    | escaped c rest ih => simp [quotedName?, ih]

/-- A name that has no end can be given one. -/
theorem quotedName_completed {text : List Char} (unclosed : quotedName? text = none) :
    ∃ added name, Quotes (text ++ added) name := by
  fun_induction quotedName? text with
  | case1 => exact ⟨[], [], .nil⟩
  | case2 => cases unclosed
  | case3 c rest ih =>
    obtain ⟨added, name, quotes⟩ := ih (Option.map_eq_none_iff.mp unclosed)
    exact ⟨added, _, .escaped c quotes⟩
  | case4 rest unquoted alone =>
    cases rest with
    | nil => exact ⟨['"'], _, .escaped '"' .nil⟩
    | cons c rest => exact (alone c rest rfl rfl).elim
  | case5 c rest unquoted _ unescaped ih =>
    obtain ⟨added, name, quotes⟩ := ih (Option.map_eq_none_iff.mp unclosed)
    exact ⟨added, _, .plain unquoted unescaped quotes⟩

/-! ## Words -/

def wordOf (text : List Char) : List Char :=
  (Text.dropBlank text).takeWhile isNameChar

def afterWord (text : List Char) : List Char :=
  (Text.dropBlank text).dropWhile isNameChar

theorem wordOf_append_afterWord (text : List Char) :
    wordOf text ++ afterWord text = Text.dropBlank text :=
  List.takeWhile_append_dropWhile

theorem afterWord_of_empty {text : List Char} (empty : wordOf text = []) :
    afterWord text = Text.dropBlank text := by
  rw [← wordOf_append_afterWord, empty, List.nil_append]

theorem closes_afterWord (text : List Char) : Closes (afterWord text) := by
  intro c first
  have stops := List.head?_dropWhile_not isNameChar (Text.dropBlank text)
  rw [← afterWord, Option.mem_def.mp first] at stops
  simpa using stops

/-! ## Tokens -/

theorem visible_sign {sign : Char} (known : sign ∈ signs) : Text.isBlank sign = false := by
  have visible : (signs.all fun sign => !Text.isBlank sign) = true := by decide
  simpa using List.all_eq_true.mp visible sign known

theorem unnamed_sign {sign : Char} (known : sign ∈ signs) : isNameChar sign = false := by
  have unnamed : (signs.all fun sign => !isNameChar sign) = true := by decide
  simpa using List.all_eq_true.mp unnamed sign known

theorem spells_nil {text rest : List Char} : Spells text [] rest ↔ text = rest := by
  constructor
  · rintro ⟨⟩
    rfl
  · rintro rfl
    exact .done text

theorem spells_mark {text rest : List Char} {sign : Char} {tokens : List Token} :
    Spells text (.mark sign :: tokens) rest ↔
      sign ∈ signs ∧ ∃ after, eat? sign text = some after ∧ Spells after tokens rest := by
  constructor
  · intro spells
    cases spells with
    | @mark gap after _ _ _ blank known later =>
      refine ⟨known, after, ?_, later⟩
      rw [eat_eq_some_iff, dropBlank_gap blank]
      exact dropBlank_cons after (visible_sign known)
  · rintro ⟨known, after, eaten, later⟩
    obtain ⟨gap, blank, split⟩ := exists_gap text
    rw [split, eat_eq_some_iff.mp eaten]
    exact .mark blank known later

theorem spells_word {text rest letters : List Char} {tokens : List Token} :
    Spells text (.word letters :: tokens) rest ↔
      letters ≠ [] ∧ wordOf text = letters ∧ Spells (afterWord text) tokens rest := by
  constructor
  · intro spells
    cases spells with
    | @word gap _ after _ _ blank filled named maximal later =>
      obtain ⟨c, others, rfl⟩ := List.exists_cons_of_ne_nil filled
      have visible := isBlank_of_isNameChar (named c (List.mem_cons_self ..))
      have dropped : Text.dropBlank (gap ++ (c :: others ++ after)) = c :: others ++ after := by
        rw [dropBlank_gap blank]
        exact dropBlank_cons _ visible
      refine ⟨filled, ?_, ?_⟩
      · rw [wordOf, dropped, takeWhile_name named maximal]
      · rw [afterWord, dropped, dropWhile_name named maximal]
        exact later
  · rintro ⟨filled, rfl, later⟩
    obtain ⟨gap, blank, split⟩ := exists_gap text
    rw [← wordOf_append_afterWord] at split
    have named : ∀ c ∈ wordOf text, isNameChar c = true := fun _ => List.mem_takeWhile_imp
    have spells := Spells.word blank filled named (closes_afterWord text) later
    rwa [← split] at spells

theorem spells_quoted {text rest name : List Char} {tokens : List Token} :
    Spells text (.quoted name :: tokens) rest ↔ ∃ inner after, eat? '"' text = some inner ∧
      quotedName? inner = some (name, after) ∧ Spells after tokens rest := by
  constructor
  · intro spells
    cases spells with
    | @quoted gap written _ after _ _ blank quotes later =>
      refine ⟨written ++ '"' :: after, after, ?_, ?_, later⟩
      · rw [eat_eq_some_iff, dropBlank_gap blank]
        exact dropBlank_cons _ (by decide)
      · exact quotedName_eq_some_iff.mpr ⟨written, quotes, rfl⟩
  · rintro ⟨inner, after, eaten, read, later⟩
    obtain ⟨written, quotes, rfl⟩ := quotedName_eq_some_iff.mp read
    obtain ⟨gap, blank, split⟩ := exists_gap text
    rw [split, eat_eq_some_iff.mp eaten]
    exact .quoted blank quotes later

theorem spells_append {text rest : List Char} {first second : List Token} :
    Spells text (first ++ second) rest ↔
      ∃ middle, Spells text first middle ∧ Spells middle second rest := by
  constructor
  · intro spells
    induction first generalizing text with
    | nil => exact ⟨text, .done text, spells⟩
    | cons token tokens ih =>
      cases spells with
      | word blank filled named maximal later =>
        obtain ⟨middle, before, behind⟩ := ih later
        exact ⟨middle, .word blank filled named maximal before, behind⟩
      | quoted blank quotes later =>
        obtain ⟨middle, before, behind⟩ := ih later
        exact ⟨middle, .quoted blank quotes before, behind⟩
      | mark blank known later =>
        obtain ⟨middle, before, behind⟩ := ih later
        exact ⟨middle, .mark blank known before, behind⟩
  · rintro ⟨middle, before, behind⟩
    induction before with
    | done => exact behind
    | word blank filled named maximal _ ih => exact .word blank filled named maximal (ih behind)
    | quoted blank quotes _ ih => exact .quoted blank quotes (ih behind)
    | mark blank known _ ih => exact .mark blank known (ih behind)

theorem eat_eq_none_of_word {text rest letters : List Char} {tokens : List Token} {sign : Char}
    (spells : Spells text (.word letters :: tokens) rest) (unnamed : isNameChar sign = false) :
    eat? sign text = none := by
  obtain ⟨filled, word, _⟩ := spells_word.mp spells
  rw [Option.eq_none_iff_forall_ne_some]
  intro after eaten
  rw [wordOf, eat_eq_some_iff.mp eaten, List.takeWhile_cons_of_neg (by simp [unnamed])] at word
  exact filled word.symm

theorem parseName_eq_ok_iff {text rest : List Char} {name : String} :
    parseName text = .ok (name, rest) ↔ ∃ label, Names label name ∧ Spells text [label] rest := by
  unfold parseName
  constructor
  · intro parsed
    split at parsed
    next inner eaten =>
      split at parsed
      next read =>
        cases parsed
        exact ⟨_, .quoted _, spells_quoted.mpr ⟨inner, rest, eaten, read, .done rest⟩⟩
      next => cases parsed
    next =>
      dsimp only at parsed
      split at parsed
      next => cases parsed
      next filled =>
        cases parsed
        refine ⟨_, .word _, spells_word.mpr ⟨?_, rfl, .done _⟩⟩
        rintro empty
        exact filled (List.isEmpty_iff.mpr empty)
  · rintro ⟨label, names, spells⟩
    cases names with
    | quoted name =>
      obtain ⟨inner, after, eaten, read, later⟩ := spells_quoted.mp spells
      obtain rfl := spells_nil.mp later
      rw [eaten]
      dsimp only
      rw [read]
    | word letters =>
      rw [eat_eq_none_of_word spells (by decide)]
      obtain ⟨filled, rfl, later⟩ := spells_word.mp spells
      obtain rfl := spells_nil.mp later
      exact if_neg fun empty => filled (List.isEmpty_iff.mp empty)

theorem parseName_of_empty {text : List Char} (missing : eat? '"' text = none)
    (empty : wordOf text = []) :
    parseName text = .error ⟨.expectedName, Text.dropBlank text⟩ := by
  unfold parseName
  rw [missing]
  exact if_pos (List.isEmpty_iff.mpr empty)

/-- A name is missing or has no end. -/
theorem parseName_error {text : List Char} {fault : Fault} (failed : parseName text = .error fault) :
    (eat? '"' text = none ∧ wordOf text = [] ∧ fault = ⟨.expectedName, Text.dropBlank text⟩) ∨
    ∃ inner, eat? '"' text = some inner ∧ quotedName? inner = none ∧
      fault = ⟨.unterminatedName, []⟩ := by
  match eaten : eat? '"' text with
  | none =>
    by_cases empty : wordOf text = []
    · cases failed.symm.trans (parseName_of_empty eaten empty)
      exact .inl ⟨rfl, empty, rfl⟩
    · have read := parseName_eq_ok_iff.mpr
        ⟨_, .word _, spells_word.mpr ⟨empty, rfl, .done (afterWord text)⟩⟩
      cases failed.symm.trans read
  | some inner =>
    match quoted : quotedName? inner with
    | none =>
      rw [parseName, eaten] at failed
      dsimp only at failed
      rw [quoted] at failed
      cases failed
      exact .inr ⟨inner, rfl, quoted, rfl⟩
    | some (name, rest) =>
      have read := parseName_eq_ok_iff.mpr
        ⟨_, .quoted _, spells_quoted.mpr ⟨inner, rest, eaten, quoted, .done rest⟩⟩
      cases failed.symm.trans read

/-! ## Other texts -/

theorem Spells.blank {gap text rest : List Char} {token : Token} {tokens : List Token}
    (spells : Spells text (token :: tokens) rest) (blank : Blank gap) :
    Spells (gap ++ text) (token :: tokens) rest := by
  have both {inner : List Char} (within : ∀ c ∈ inner, Text.isBlank c = true) :
      ∀ c ∈ gap ++ inner, Text.isBlank c = true := fun c inside =>
    (List.mem_append.mp inside).elim (blank c) (within c)
  cases spells with
  | word within filled named maximal later =>
    rw [← List.append_assoc]
    exact .word (both within) filled named maximal later
  | quoted within quotes later =>
    rw [← List.append_assoc]
    exact .quoted (both within) quotes later
  | mark within known later =>
    rw [← List.append_assoc]
    exact .mark (both within) known later

/-- What is taken off a text can be taken off any other that goes on with it as a word may. -/
theorem Spells.exchange {text rest : List Char} {tokens : List Token}
    (spells : Spells text tokens rest) : ∃ used, text = used ++ rest ∧
      ∀ other, (Closes rest → Closes other) → Spells (used ++ other) tokens other := by
  induction spells with
  | done rest => exact ⟨[], rfl, fun other _ => .done other⟩
  | @word gap letters after rest tokens blank filled named maximal _ ih =>
    obtain ⟨used, rfl, back⟩ := ih
    refine ⟨gap ++ (letters ++ used), by simp, fun other goes => ?_⟩
    rw [List.append_assoc, List.append_assoc]
    refine .word blank filled named ?_ (back other goes)
    cases used with
    | nil => exact goes maximal
    | cons c used => exact maximal
  | @quoted gap written name after rest tokens blank quotes _ ih =>
    obtain ⟨used, rfl, back⟩ := ih
    refine ⟨gap ++ '"' :: (written ++ '"' :: used), by simp, fun other goes => ?_⟩
    have spells := Spells.quoted blank quotes (back other goes)
    simpa using spells
  | @mark gap after rest sign tokens blank known _ ih =>
    obtain ⟨used, rfl, back⟩ := ih
    refine ⟨gap ++ sign :: used, by simp, fun other goes => ?_⟩
    have spells := Spells.mark blank known (back other goes)
    simpa using spells

end PluginBridge.Ty
