import PluginBridge.Proofs.TypeParsing

/-! The parser of type expressions and their grammar. The tokens that a run takes off a text fit its
plan, and a plan runs through tokens that the grammar allows, so a type is parsed exactly from its
expressions. -/

namespace PluginBridge.Ty

variable {α β : Type}

/-! ## Tokens of a plan -/

/-- The tokens of a part, as the grammar has them, and what they stand for. The items of a tuple and
the attributes of an object go up to their closing sign. -/
def Means : (part : Part) → List Token → part.Result → Prop
  | .ty, tokens, ty => Denotes tokens ty
  | .items, tokens, items => ∃ parts : List (List Token × Ty), parts ≠ [] ∧
      (∀ part ∈ parts, Denotes part.1 part.2) ∧
      tokens = separated (parts.map (·.1)) ++ [.mark ']'] ∧ items = parts.map (·.2)
  | .attributes, tokens, members => ∃ attributes : List Attribute, attributes ≠ [] ∧
      (∀ attr ∈ attributes, Names attr.label attr.name) ∧
      (∀ attr ∈ attributes, Denotes attr.tokens attr.ty) ∧
      tokens = separated (attributes.map Attribute.written) ++ [.mark '\x7d'] ∧
      members = attributes.map Attribute.member

/-- The tokens lead through the plan to the result. -/
def Plan.Fits : Plan α → List Token → α → Prop
  | .done result, tokens, a => tokens = [] ∧ a = result
  | .fail _, _, _ => False
  | .take sign next, tokens, a => ∃ later, tokens = .mark sign :: later ∧ next.Fits later a
  | .choose sign yes no, tokens, a =>
    (∃ later, tokens = .mark sign :: later ∧ yes.Fits later a) ∨ no.Fits tokens a
  | .word next, tokens, a =>
    ∃ letters later, tokens = .word letters :: later ∧ (next letters).Fits later a
  | .name next, tokens, a => ∃ label name later, tokens = label :: later ∧ Names label name ∧
      (next name).Fits later a
  | .call part next, tokens, a => ∃ first b later, tokens = first ++ later ∧ Means part first b ∧
      (next b).Fits later a

theorem separated_cons (part : List Token) {parts : List (List Token)} (more : parts ≠ []) :
    separated (part :: parts) = part ++ .mark ',' :: separated parts := by
  cases parts with
  | nil => exact absurd rfl more
  | cons next rest => rfl

theorem means_items {first later : List Token} {item : Ty} {items : List Ty}
    (denotes : Denotes first item)
    (fits : (Plan.others ']' .items [item] (item :: ·)).Fits later items) :
    Means .items (first ++ later) items := by
  rcases fits with ⟨_, rfl, rfl, rfl⟩ | ⟨_, rfl, _, _, _, rfl, ⟨parts, more, each, rfl, rfl⟩, rfl, rfl⟩
  · exact ⟨[(first, item)], by simp, List.forall_mem_singleton.mpr denotes, rfl, rfl⟩
  · refine ⟨(first, item) :: parts, by simp, List.forall_mem_cons.mpr ⟨denotes, each⟩, ?_, rfl⟩
    rw [List.map_cons, separated_cons first (by simpa using more)]
    simp

theorem means_attributes {label : Token} {first later : List Token} {name : String} {ty : Ty}
    {members : List (String × Ty)} (names : Names label name) (denotes : Denotes first ty)
    (fits : (Plan.others '\x7d' .attributes [(name, ty)] ((name, ty) :: ·)).Fits later members) :
    Means .attributes (label :: .mark '=' :: (first ++ later)) members := by
  rcases fits with ⟨_, rfl, rfl, rfl⟩ |
    ⟨_, rfl, _, _, _, rfl, ⟨attributes, more, named, each, rfl, rfl⟩, rfl, rfl⟩
  · exact ⟨[⟨label, name, first, ty⟩], by simp, List.forall_mem_singleton.mpr names,
      List.forall_mem_singleton.mpr denotes, rfl, rfl⟩
  · refine ⟨⟨label, name, first, ty⟩ :: attributes, by simp,
      List.forall_mem_cons.mpr ⟨names, named⟩, List.forall_mem_cons.mpr ⟨denotes, each⟩, ?_, rfl⟩
    rw [List.map_cons, separated_cons _ (by simpa using more)]
    simp [Attribute.written]

theorem denotes_tuple {tokens : List Token} {ty : Ty} (fits : Plan.tuple.Fits tokens ty) :
    Denotes (.word "tuple".toList :: tokens) ty := by
  rcases fits with ⟨_, rfl, _, rfl, ⟨_, rfl, _, rfl, rfl, rfl⟩ |
    ⟨_, _, _, rfl, ⟨parts, _, each, rfl, rfl⟩, _, rfl, rfl, rfl⟩⟩
  · exact @Denotes.tuple [] (by simp)
  · rw [List.append_assoc]
    exact .tuple each

theorem denotes_object {tokens : List Token} {ty : Ty} (fits : Plan.object.Fits tokens ty) :
    Denotes (.word "object".toList :: tokens) ty := by
  rcases fits with ⟨_, rfl, _, rfl, ⟨_, rfl, _, rfl, rfl, rfl⟩ |
    ⟨_, _, _, rfl, ⟨attributes, _, named, each, rfl, rfl⟩, _, rfl, rfl, rfl⟩⟩
  · exact @Denotes.object [] [] (by simp) (by simp) .nil fun _ => rfl
  · rw [List.append_assoc]
    exact .object named each (Fields.ascending_ofList _) fun name => Fields.find?_ofList name _

theorem denotes_container {tokens : List Token} {make : Ty → Ty} {ty : Ty}
    (fits : (Plan.container make).Fits tokens ty) : ∃ inner item, Denotes inner item ∧
      tokens = .mark '(' :: (inner ++ [.mark ')']) ∧ ty = make item := by
  obtain ⟨_, rfl, inner, item, _, rfl, denotes, _, rfl, rfl, rfl⟩ := fits
  exact ⟨inner, item, denotes, rfl, rfl⟩

theorem denotes_behind {letters : List Char} {tokens : List Token} {ty : Ty} :
    (Plan.behind letters).Fits tokens ty → Denotes (.word letters :: tokens) ty := by
  have spelled {keyword : String} (word : String.ofList letters = keyword) :
      letters = keyword.toList := by
    rw [← word, String.toList_ofList]
  unfold Plan.behind
  fun_cases announced letters
  case case1 word =>
    rintro ⟨rfl, rfl⟩
    exact spelled word ▸ .any
  case case2 word =>
    rintro ⟨rfl, rfl⟩
    exact spelled word ▸ .bool
  case case3 word =>
    rintro ⟨rfl, rfl⟩
    exact spelled word ▸ .number
  case case4 word =>
    rintro ⟨rfl, rfl⟩
    exact spelled word ▸ .string
  case case5 word =>
    intro fits
    obtain ⟨inner, item, denotes, rfl, rfl⟩ := denotes_container fits
    exact spelled word ▸ .list denotes
  case case6 word =>
    intro fits
    obtain ⟨inner, item, denotes, rfl, rfl⟩ := denotes_container fits
    exact spelled word ▸ .set denotes
  case case7 word =>
    intro fits
    obtain ⟨inner, item, denotes, rfl, rfl⟩ := denotes_container fits
    exact spelled word ▸ .map denotes
  case case8 word => exact spelled word ▸ denotes_tuple
  case case9 word => exact spelled word ▸ denotes_object
  case case10 => exact False.elim
  case case11 => exact False.elim

theorem means_of_fits {part : Part} {tokens : List Token} {a : part.Result}
    (fits : (Plan.of part).Fits tokens a) : Means part tokens a := by
  cases part with
  | ty =>
    obtain ⟨letters, later, rfl, behind⟩ := fits
    exact denotes_behind behind
  | items =>
    obtain ⟨first, item, later, rfl, denotes, more⟩ := fits
    exact means_items denotes more
  | attributes =>
    obtain ⟨label, name, _, rfl, names, _, rfl, first, ty, later, rfl, denotes, more⟩ := fits
    exact means_attributes names denotes more

/-! ## What is read is an expression -/

/-- Each sign of the plan is one of the grammar, and the plan takes no empty word and always
something where a sign is missing. -/
def Plan.Signed : Plan α → Prop
  | .done _ | .fail _ => True
  | .take sign next => sign ∈ signs ∧ next.Signed
  | .choose sign yes no => sign ∈ signs ∧ yes.Signed ∧ no.Signed ∧ no.Filled
  | .word next => (∃ reason, next [] = .fail reason) ∧ ∀ letters, (next letters).Signed
  | .name next => ∀ name, (next name).Signed
  | .call _ next => ∀ a, (next a).Signed

theorem signed_behind (letters : List Char) : (Plan.behind letters).Signed := by
  unfold Plan.behind
  split <;> simp [Plan.Signed, Plan.Filled, Plan.container, Plan.tuple, Plan.object, Plan.listed,
    signs]

theorem signed_of (part : Part) : (Plan.of part).Signed := by
  cases part with
  | ty => exact ⟨⟨_, rfl⟩, signed_behind⟩
  | items | attributes => simp [Plan.of, Plan.Signed, Plan.Filled, Plan.others, signs]

/-- A run to a result takes tokens off the text that fit the plan. -/
theorem Runs.spelled {plan : Plan α} {text rest : List Char} {a : α}
    (runs : Runs plan text (.ok (a, rest))) (signed : plan.Signed) :
    ∃ tokens, plan.Fits tokens a ∧ Spells text tokens rest := by
  generalize same : Except.ok (a, rest) = outcome at runs
  induction runs generalizing rest with
  | done b text =>
    cases same
    exact ⟨[], ⟨rfl, rfl⟩, .done text⟩
  | fail | absent | unnamed | failed => cases same
  | taken eaten _ ih =>
    obtain ⟨tokens, fits, spells⟩ := ih signed.2 same
    exact ⟨_, ⟨tokens, rfl, fits⟩, spells_mark.mpr ⟨signed.1, _, eaten, spells⟩⟩
  | yes eaten _ ih =>
    obtain ⟨tokens, fits, spells⟩ := ih signed.2.1 same
    exact ⟨_, .inl ⟨tokens, rfl, fits⟩, spells_mark.mpr ⟨signed.1, _, eaten, spells⟩⟩
  | no _ _ ih =>
    obtain ⟨tokens, fits, spells⟩ := ih signed.2.2.1 same
    exact ⟨tokens, .inr fits, spells⟩
  | @word _ next text _ later ih =>
    obtain ⟨⟨reason, empty⟩, each⟩ := signed
    obtain ⟨tokens, fits, spells⟩ := ih (each _) same
    have filled : wordOf text ≠ [] := by
      intro none
      rw [none, empty] at fits
      exact fits
    exact ⟨_, ⟨_, tokens, rfl, fits⟩, spells_word.mpr ⟨filled, rfl, spells⟩⟩
  | named read _ ih =>
    obtain ⟨label, names, front⟩ := parseName_eq_ok_iff.mp read
    obtain ⟨tokens, fits, spells⟩ := ih (signed _) same
    exact ⟨_, ⟨label, _, tokens, rfl, names, fits⟩, spells_append.mpr ⟨_, front, spells⟩⟩
  | called first _ ihFirst ihLater =>
    obtain ⟨front, fitsFront, spellsFront⟩ := ihFirst (signed_of _) rfl
    obtain ⟨tokens, fits, spells⟩ := ihLater (signed _) same
    exact ⟨_, ⟨front, _, tokens, rfl, means_of_fits fitsFront, fits⟩,
      spells_append.mpr ⟨_, spellsFront, spells⟩⟩

/-! ## An expression is read -/

/-- Where a type is read, no sign comes next. -/
theorem eat_eq_none_of_ty {text rest : List Char} {ty : Ty} {sign : Char}
    (runs : Runs (Plan.of .ty) text (.ok (ty, rest))) (unnamed : isNameChar sign = false) :
    eat? sign text = none := by
  obtain ⟨_, ⟨letters, later, rfl, _⟩, spells⟩ := runs.spelled (signed_of .ty)
  exact eat_eq_none_of_word spells unnamed

theorem eat_eq_none_of_name {text rest : List Char} {name : String} {sign : Char}
    (read : parseName text = .ok (name, rest)) (unnamed : isNameChar sign = false)
    (unquoted : '"' ≠ sign) : eat? sign text = none := by
  obtain ⟨label, names, spells⟩ := parseName_eq_ok_iff.mp read
  cases names with
  | word letters => exact eat_eq_none_of_word spells unnamed
  | quoted name =>
    obtain ⟨inner, after, eaten, _⟩ := spells_quoted.mp spells
    exact eat_eq_none unquoted eaten

theorem runs_keyword {text letters rest : List Char} {tokens : List Token}
    {outcome : Except Fault (Ty × List Char)} (spells : Spells text (.word letters :: tokens) rest)
    (later : ∀ after, Spells after tokens rest → Runs (Plan.behind letters) after outcome) :
    Runs (Plan.of .ty) text outcome := by
  obtain ⟨_, rfl, behind⟩ := spells_word.mp spells
  exact .word (later _ behind)

theorem runs_closing {sign : Char} {text rest : List Char} (a : α)
    (spells : Spells text [.mark sign] rest) : Runs (.take sign (.done a)) text (.ok (a, rest)) := by
  obtain ⟨_, after, eaten, same⟩ := spells_mark.mp spells
  obtain rfl := spells_nil.mp same
  exact .taken eaten (.done a after)

section Parts

/-- Wherever a text begins with the tokens, the part is read from them. -/
def Reads (part : Part) (tokens : List Token) (a : part.Result) : Prop :=
  ∀ text rest, Spells text tokens rest → Runs (Plan.of part) text (.ok (a, rest))

variable {text rest : List Char} {tokens : List Token}

theorem runs_container {make : Ty → Ty} {item : Ty} (inside : Reads .ty tokens item)
    (spells : Spells text (.mark '(' :: (tokens ++ [.mark ')'])) rest) :
    Runs (Plan.container make) text (.ok (make item, rest)) := by
  obtain ⟨_, inner, opened, behind⟩ := spells_mark.mp spells
  obtain ⟨middle, front, closed⟩ := spells_append.mp behind
  exact .taken opened (.called (inside inner middle front) (runs_closing _ closed))

variable {closing : Char} {part : Part} {only : α} {more : part.Result → α}

theorem runs_last (spells : Spells text [.mark closing] rest) :
    Runs (Plan.others closing part only more) text (.ok (only, rest)) := by
  obtain ⟨_, after, eaten, same⟩ := spells_mark.mp spells
  obtain rfl := spells_nil.mp same
  exact .yes eaten (.done only after)

theorem runs_more {a : part.Result} (distinct : ',' ≠ closing) (later : Reads part tokens a)
    (spells : Spells text (.mark ',' :: tokens) rest) :
    Runs (Plan.others closing part only more) text (.ok (more a, rest)) := by
  obtain ⟨_, after, eaten, behind⟩ := spells_mark.mp spells
  exact .no (eat_eq_none distinct eaten)
    (.taken eaten (.called (later after rest behind) (.done (more a) rest)))

theorem reads_items {parts : List (List Token × Ty)} (filled : parts ≠ [])
    (each : ∀ part ∈ parts, Reads .ty part.1 part.2) :
    Reads .items (separated (parts.map (·.1)) ++ [.mark ']']) (parts.map (·.2)) := by
  induction parts with
  | nil => exact absurd rfl filled
  | cons part parts ih =>
    intro text rest spells
    obtain ⟨first, others⟩ := List.forall_mem_cons.mp each
    by_cases none : parts = []
    · subst none
      obtain ⟨middle, front, closed⟩ := spells_append.mp spells
      exact .called (first text middle front) (runs_last closed)
    · rw [List.map_cons, separated_cons _ (by simpa using none), List.append_assoc] at spells
      obtain ⟨middle, front, back⟩ := spells_append.mp spells
      exact .called (first text middle front) (runs_more (by decide) (ih none others) back)

theorem reads_attributes {attributes : List Attribute} (filled : attributes ≠ [])
    (named : ∀ attr ∈ attributes, Names attr.label attr.name)
    (each : ∀ attr ∈ attributes, Reads .ty attr.tokens attr.ty) :
    Reads .attributes (separated (attributes.map Attribute.written) ++ [.mark '\x7d'])
      (attributes.map Attribute.member) := by
  induction attributes with
  | nil => exact absurd rfl filled
  | cons attr attributes ih =>
    intro text rest spells
    obtain ⟨first, others⟩ := List.forall_mem_cons.mp each
    obtain ⟨names, namedOthers⟩ := List.forall_mem_cons.mp named
    -- The name and the sign behind it are in front in either case.
    have behind {tokens : List Token} {outcome : Except Fault (List (String × Ty) × List Char)}
        (spells : Spells text (attr.written ++ tokens) rest)
        (later : ∀ middle, Spells middle tokens rest →
          Runs (Plan.others '\x7d' .attributes [attr.member] (attr.member :: ·)) middle outcome) :
        Runs (Plan.of .attributes) text outcome := by
      rw [Attribute.written, List.cons_append, ← List.singleton_append] at spells
      obtain ⟨signed, label, spells⟩ := spells_append.mp spells
      obtain ⟨_, inner, eaten, back⟩ := spells_mark.mp spells
      obtain ⟨middle, front, back⟩ := spells_append.mp back
      exact .named (parseName_eq_ok_iff.mpr ⟨_, names, label⟩)
        (.taken eaten (.called (first inner middle front) (later middle back)))
    by_cases none : attributes = []
    · subst none
      exact behind spells fun _ => runs_last
    · rw [List.map_cons, separated_cons _ (by simpa using none), List.append_assoc] at spells
      exact behind spells fun _ => runs_more (by decide) (ih none namedOthers others)

variable {opening : Char} {nothing : α} {make : part.Result → α}

theorem runs_empty
    (spells : Spells text [.mark '(', .mark opening, .mark closing, .mark ')'] rest) :
    Runs (Plan.listed opening closing part nothing make) text (.ok (nothing, rest)) := by
  obtain ⟨_, brackets, opened, spells⟩ := spells_mark.mp spells
  obtain ⟨_, inner, begun, spells⟩ := spells_mark.mp spells
  obtain ⟨_, after, ended, closed⟩ := spells_mark.mp spells
  exact .taken opened (.taken begun (.yes ended (runs_closing _ closed)))

theorem runs_listed {found : part.Result} (reads : Reads part tokens found)
    (starts : ∀ {text rest}, Runs (Plan.of part) text (.ok (found, rest)) → eat? closing text = none)
    (spells : Spells text (.mark '(' :: .mark opening :: (tokens ++ [.mark ')'])) rest) :
    Runs (Plan.listed opening closing part nothing make) text (.ok (make found, rest)) := by
  obtain ⟨_, brackets, opened, spells⟩ := spells_mark.mp spells
  obtain ⟨_, inner, begun, spells⟩ := spells_mark.mp spells
  obtain ⟨middle, front, closed⟩ := spells_append.mp spells
  have runs := reads inner middle front
  exact .taken opened (.taken begun (.no (starts runs) (.called runs (runs_closing _ closed))))

theorem runs_tuple {parts : List (List Token × Ty)}
    (each : ∀ part ∈ parts, Reads .ty part.1 part.2)
    (spells : Spells text (.mark '(' :: .mark '[' ::
      (separated (parts.map (·.1)) ++ [.mark ']', .mark ')'])) rest) :
    Runs Plan.tuple text (.ok (.tuple (parts.map (·.2)), rest)) := by
  by_cases none : parts = []
  · subst none
    exact runs_empty spells
  · rw [List.append_cons] at spells
    refine runs_listed (reads_items none each) (fun runs => ?_) spells
    cases runs with
    | called first => exact eat_eq_none_of_ty first (by decide)

theorem runs_object {attributes : List Attribute}
    (named : ∀ attr ∈ attributes, Names attr.label attr.name)
    (each : ∀ attr ∈ attributes, Reads .ty attr.tokens attr.ty)
    (spells : Spells text (.mark '(' :: .mark '\x7b' ::
      (separated (attributes.map Attribute.written) ++ [.mark '\x7d', .mark ')'])) rest) :
    Runs Plan.object text
      (.ok (.object (Fields.ofList (attributes.map Attribute.member)), rest)) := by
  by_cases none : attributes = []
  · subst none
    exact runs_empty spells
  · rw [List.append_cons] at spells
    refine runs_listed (reads_attributes none named each) (fun runs => ?_) spells
    cases runs with
    | named read => exact eat_eq_none_of_name read (by decide) (by decide)

end Parts

/-- A type is read wherever tokens stand for it, whatever follows them. -/
theorem Denotes.reads {tokens : List Token} {ty : Ty} (denotes : Denotes tokens ty) :
    Reads .ty tokens ty := by
  induction denotes with
  | any | bool | number | string =>
    intro text rest spells
    refine runs_keyword spells fun after same => ?_
    obtain rfl := spells_nil.mp same
    exact .done _ after
  | list _ ih | set _ ih | map _ ih =>
    exact fun text rest spells => runs_keyword spells fun _ => runs_container ih
  | tuple _ ih => exact fun text rest spells => runs_keyword spells fun _ => runs_tuple ih
  | object named _ ascending last ih =>
    intro text rest spells
    rw [Fields.eq_ofList ascending last]
    exact runs_keyword spells fun _ => runs_object named ih

theorem reads_of_means {part : Part} {tokens : List Token} {a : part.Result}
    (means : Means part tokens a) : Reads part tokens a := by
  cases part with
  | ty => exact means.reads
  | items =>
    obtain ⟨parts, filled, each, rfl, rfl⟩ := means
    exact reads_items filled fun part inside => (each part inside).reads
  | attributes =>
    obtain ⟨attributes, filled, named, each, rfl, rfl⟩ := means
    exact reads_attributes filled named fun attr inside => (each attr inside).reads

/-! ## Expressions -/

theorem dropBlank_eq_nil {rest : List Char} :
    Text.dropBlank rest = [] ↔ ∀ c ∈ rest, Text.isBlank c = true :=
  List.dropWhile_eq_nil_iff

theorem parseAll_iff {text : List Char} {ty : Ty} :
    parseAll text = .ok ty ↔ IsExpression text ty := by
  constructor
  · intro parsed
    obtain ⟨outcome, runs⟩ := exists_run text
    match outcome, runs with
    | .error fault, runs => cases parsed.symm.trans (parseAll_of_error runs)
    | .ok (read, rest), runs =>
      match left : Text.dropBlank rest with
      | c :: more => cases parsed.symm.trans (parseAll_of_cons runs left)
      | [] =>
        cases parsed.symm.trans (parseAll_of_blank runs left)
        obtain ⟨tokens, fits, spells⟩ := runs.spelled (signed_of .ty)
        exact ⟨tokens, rest, means_of_fits fits, spells, dropBlank_eq_nil.mp left⟩
  · rintro ⟨tokens, rest, denotes, spells, blank⟩
    exact parseAll_of_blank (denotes.reads text rest spells) (dropBlank_eq_nil.mpr blank)

theorem parse_eq_ok_iff {text : String} {ty : Ty} :
    Ty.parse text = .ok ty ↔ parseAll text.toList = .ok ty := by
  unfold Ty.parse
  split <;> simp [*]

/-- A text is read as a type exactly if it is an expression for it. -/
theorem parse_iff (text : String) (ty : Ty) :
    Ty.parse text = .ok ty ↔ IsExpression text.toList ty :=
  parse_eq_ok_iff.trans parseAll_iff

end PluginBridge.Ty
