import PluginBridge.Proofs.TypeGrammar

/-! Texts that can be completed. Wherever the parser of type expressions may stop, but at an unknown
word, what it has taken so far is the front of some expression. -/

namespace PluginBridge.Ty

variable {α : Type}

/-! ## Plans that can be finished -/

/-- A sign comes next, or nothing. -/
def Plan.Parted : Plan α → Prop
  | .done _ | .fail _ | .take _ _ => True
  | .choose _ _ no => no.Parted
  | .word _ | .name _ | .call _ _ => False

def Plan.Finishes (plan : Plan α) : Prop :=
  ∃ text tokens a, plan.Fits tokens a ∧ Spells text tokens []

/-- The plan can be finished wherever it may stop, but behind a word that is unknown. -/
def Plan.Hopeful : Plan α → Prop
  | .done _ => True
  | .fail reason => ∃ keyword, reason = .unknownType keyword
  | .take sign next => (Plan.take sign next).Finishes ∧ next.Hopeful
  | .choose _ yes no => yes.Hopeful ∧ no.Hopeful
  | .word next => (Plan.word next).Finishes ∧ (∃ reason, next [] = .fail reason) ∧
      ∀ letters, letters ≠ [] → (next letters).Parted ∧ (next letters).Hopeful
  | .name next => ∀ name, (next name).Parted ∧ (next name).Finishes ∧ (next name).Hopeful
  | .call _ next => ∀ a, (next a).Parted ∧ (next a).Finishes ∧ (next a).Hopeful

theorem mark_of_parted {plan : Plan α} (parted : plan.Parted) {tokens : List Token} {a : α}
    (fits : plan.Fits tokens a) : tokens = [] ∨ ∃ sign later, tokens = .mark sign :: later := by
  induction plan with
  | done => exact .inl fits.1
  | fail => exact fits.elim
  | take sign =>
    obtain ⟨later, rfl, _⟩ := fits
    exact .inr ⟨sign, later, rfl⟩
  | choose sign yes no _ ih =>
    rcases fits with ⟨later, rfl, _⟩ | fits
    · exact .inr ⟨sign, later, rfl⟩
    · exact ih parted fits
  | word | name | call => exact parted.elim

/-- A word ends in front of what a parted plan takes. -/
theorem closes_of_parted {plan : Plan α} (parted : plan.Parted) {text : List Char}
    {tokens : List Token} {a : α} (fits : plan.Fits tokens a) (spells : Spells text tokens []) :
    Closes text := by
  rcases mark_of_parted parted fits with rfl | ⟨sign, later, rfl⟩
  · rw [spells_nil.mp spells]
    exact closes_nil
  · cases spells with
    | @mark gap after _ _ _ blank known later =>
      cases gap with
      | nil => exact closes_cons after (unnamed_sign known)
      | cons c gap => exact closes_cons _ (closes_of_blank blank c rfl)

/-- Any text that a parted plan takes can follow what was taken before, which may end with a word. -/
theorem Spells.followed {plan : Plan α} {text middle : List Char} {first tokens : List Token} {a : α}
    (spells : Spells text first middle) (parted : plan.Parted) (fits : plan.Fits tokens a) :
    ∃ used, text = used ++ middle ∧
      ∀ other, Spells other tokens [] → Spells (used ++ other) (first ++ tokens) [] := by
  obtain ⟨used, split, back⟩ := spells.exchange
  refine ⟨used, split, fun other behind => spells_append.mpr ⟨other, back other fun _ => ?_, behind⟩⟩
  exact closes_of_parted parted fits behind

/-! ## Fronts of texts -/

/-- The rest stands where the text was read wrongly, and what is in front of it can be completed. -/
def Viable (plan : Plan α) (text rest : List Char) : Prop :=
  ∃ front later tokens a, text = front ++ rest ∧ plan.Fits tokens a ∧ Spells (front ++ later) tokens []

section Viable

variable {plan next : Plan α} {text middle rest : List Char}

theorem Viable.sign {sign : Char} (known : sign ∈ signs) (eaten : eat? sign text = some middle)
    (fits : ∀ tokens a, next.Fits tokens a → plan.Fits (.mark sign :: tokens) a)
    (viable : Viable next middle rest) : Viable plan text rest := by
  obtain ⟨front, later, tokens, a, rfl, fitsNext, spells⟩ := viable
  obtain ⟨gap, blank, split⟩ := exists_gap text
  rw [eat_eq_some_iff.mp eaten] at split
  refine ⟨gap ++ sign :: front, later, _, a, by simpa using split, fits tokens a fitsNext, ?_⟩
  have whole := Spells.mark blank known spells
  simpa using whole

/-- What is taken first may end with a word if a parted plan goes on. -/
theorem Viable.parted {first : List Token} (spells : Spells text first middle)
    (parted : next.Parted) (fits : ∀ tokens a, next.Fits tokens a → plan.Fits (first ++ tokens) a)
    (viable : Viable next middle rest) : Viable plan text rest := by
  obtain ⟨front, later, tokens, a, rfl, fitsNext, spellsNext⟩ := viable
  obtain ⟨used, rfl, followed⟩ := spells.followed parted fitsNext
  refine ⟨used ++ front, later, _, a, by simp, fits tokens a fitsNext, ?_⟩
  rw [List.append_assoc]
  exact followed _ spellsNext

/-- Where nothing is taken but blank characters, the plan can still be finished. -/
theorem viable_here {other : List Char} {token : Token} {tokens : List Token} {a : α}
    (fits : plan.Fits (token :: tokens) a) (spells : Spells other (token :: tokens) []) :
    Viable plan text (Text.dropBlank text) := by
  obtain ⟨gap, blank, split⟩ := exists_gap text
  exact ⟨gap, other, _, a, split, fits, spells.blank blank⟩

theorem viable_name {next : String → Plan α} (finishes : ∀ name, (next name).Finishes)
    {fault : Fault} (failed : parseName text = .error fault) :
    Viable (.name next) text fault.rest := by
  rcases parseName_error failed with ⟨_, _, rfl⟩ | ⟨inner, eaten, unclosed, rfl⟩
  · obtain ⟨other, tokens, a, fits, spells⟩ := finishes ""
    have quoted := Spells.quoted (List.forall_mem_nil _) .nil spells
    exact viable_here ⟨_, "", tokens, rfl, .quoted [], fits⟩ quoted
  · obtain ⟨added, name, quotes⟩ := quotedName_completed unclosed
    obtain ⟨other, tokens, a, fits, spells⟩ := finishes (String.ofList name)
    obtain ⟨gap, blank, split⟩ := exists_gap text
    rw [eat_eq_some_iff.mp eaten] at split
    refine ⟨text, added ++ '"' :: other, _, a, by simp, ⟨_, _, tokens, rfl, .quoted name, fits⟩, ?_⟩
    have whole := Spells.quoted blank quotes spells
    simpa [split] using whole

end Viable

/-! ## The parser's plans can be finished -/

section Finishes

theorem finishes_done (a : α) : (Plan.done a).Finishes :=
  ⟨[], [], a, ⟨rfl, rfl⟩, .done []⟩

variable {sign : Char} {next yes no : Plan α}

theorem finishes_take (known : sign ∈ signs) (finishes : next.Finishes) :
    (Plan.take sign next).Finishes := by
  obtain ⟨text, tokens, a, fits, spells⟩ := finishes
  exact ⟨_, _, a, ⟨tokens, rfl, fits⟩, .mark (List.forall_mem_nil _) known spells⟩

theorem finishes_yes (known : sign ∈ signs) (finishes : yes.Finishes) :
    (Plan.choose sign yes no).Finishes := by
  obtain ⟨text, tokens, a, fits, spells⟩ := finishes
  exact ⟨_, _, a, .inl ⟨tokens, rfl, fits⟩, .mark (List.forall_mem_nil _) known spells⟩

theorem finishes_name {next : String → Plan α} (finishes : ∀ name, (next name).Finishes) :
    (Plan.name next).Finishes := by
  obtain ⟨text, tokens, a, fits, spells⟩ := finishes ""
  exact ⟨_, _, a, ⟨_, "", tokens, rfl, .quoted [], fits⟩,
    .quoted (List.forall_mem_nil _) .nil spells⟩

theorem finishes_call {part : Part} {next : part.Result → Plan α}
    (first : (Plan.of part).Finishes)
    (each : ∀ a, (next a).Parted ∧ (next a).Finishes) : (Plan.call part next).Finishes := by
  obtain ⟨text, tokens, b, fits, spells⟩ := first
  obtain ⟨parted, other, more, a, fitsNext, spellsNext⟩ := each b
  obtain ⟨used, rfl, followed⟩ := spells.followed parted fitsNext
  exact ⟨_, _, a, ⟨tokens, b, more, rfl, means_of_fits fits, fitsNext⟩, followed other spellsNext⟩

/-- The plan goes on behind something that may end with a word. -/
def Plan.Resumes (plan : Plan α) : Prop :=
  plan.Parted ∧ plan.Finishes ∧ plan.Hopeful

theorem resumes_closing (known : sign ∈ signs) (a : α) : (Plan.take sign (.done a)).Resumes := by
  have finishes := finishes_take known (finishes_done a)
  exact ⟨trivial, finishes, finishes, trivial⟩

variable {part : Part} {opening closing : Char}

theorem finishes_others (known : closing ∈ signs) (only : α) (more : part.Result → α) :
    (Plan.others closing part only more).Finishes :=
  finishes_yes known (finishes_done only)

theorem finishes_of (part : Part) : (Plan.of part).Finishes := by
  have word : Spells "any".toList [.word "any".toList] [] :=
    spells_word.mpr ⟨by simp, by decide, .done []⟩
  have fits : (Plan.of .ty).Fits [.word "any".toList] .any := ⟨_, [], rfl, rfl, rfl⟩
  have ty : (Plan.of .ty).Finishes := ⟨_, _, _, fits, word⟩
  cases part with
  | ty => exact ty
  | items =>
    exact finishes_call ty fun item => ⟨trivial, finishes_others (by decide) [item] _⟩
  | attributes =>
    refine finishes_name fun name => finishes_take (by decide) (finishes_call ty fun ty => ?_)
    exact ⟨trivial, finishes_others (by decide) [(name, ty)] _⟩

theorem resumes_others (known : closing ∈ signs) (only : α) (more : part.Result → α) :
    (Plan.others closing part only more).Resumes := by
  have each (found : part.Result) : (Plan.done (more found)).Resumes :=
    ⟨trivial, finishes_done _, trivial⟩
  have call := finishes_call (finishes_of part) fun found => ⟨(each found).1, (each found).2.1⟩
  exact ⟨trivial, finishes_others known only more, trivial, finishes_take (by decide) call, each⟩

theorem hopeful_call {next : part.Result → Plan α} (known : sign ∈ signs)
    (each : ∀ found, (next found).Resumes) : (Plan.take sign (.call part next)).Hopeful := by
  have call := finishes_call (finishes_of part) fun found => ⟨(each found).1, (each found).2.1⟩
  exact ⟨finishes_take known call, each⟩

theorem hopeful_listed (knownOpening : opening ∈ signs) (knownClosing : closing ∈ signs)
    (nothing : α) (make : part.Result → α) :
    (Plan.listed opening closing part nothing make).Hopeful := by
  have closed (a : α) : (Plan.take ')' (.done a)).Resumes := resumes_closing (by decide) a
  have inner (no : Plan α) :
      (Plan.take opening (.choose closing (.take ')' (.done nothing)) no)).Finishes :=
    finishes_take knownOpening (finishes_yes knownClosing (closed nothing).2.1)
  exact ⟨finishes_take (by decide) (inner _), inner _, (closed nothing).2.2, fun _ => closed _⟩

theorem eq_nil_of_announced {letters : List Char} :
    announced letters = .nothing → letters = [] := by
  fun_cases announced letters
  case case10 word =>
    rw [← String.toList_ofList (l := letters), word]
    exact fun _ => rfl
  all_goals
    intro same
    cases same

theorem hopeful_behind {letters : List Char} (filled : letters ≠ []) :
    (Plan.behind letters).Parted ∧ (Plan.behind letters).Hopeful := by
  unfold Plan.behind
  split
  next => exact ⟨trivial, trivial⟩
  next make _ => exact ⟨trivial, hopeful_call (by decide) fun item => resumes_closing (by decide) _⟩
  next => exact ⟨trivial, hopeful_listed (by decide) (by decide) _ _⟩
  next => exact ⟨trivial, hopeful_listed (by decide) (by decide) _ _⟩
  next nothing => exact absurd (eq_nil_of_announced nothing) filled
  next => exact ⟨trivial, _, rfl⟩

theorem hopeful_of (part : Part) : (Plan.of part).Hopeful := by
  cases part with
  | ty => exact ⟨finishes_of .ty, ⟨_, rfl⟩, fun letters filled => hopeful_behind filled⟩
  | items => exact fun item => resumes_others (by decide) [item] _
  | attributes =>
    intro name
    have hopeful : (Plan.take '=' (.call .ty fun ty =>
        Plan.others '\x7d' .attributes [(name, ty)] ((name, ty) :: ·))).Hopeful :=
      hopeful_call (by decide) fun ty => resumes_others (by decide) [(name, ty)] _
    exact ⟨trivial, hopeful.1, hopeful⟩

end Finishes

/-! ## Where a run fails -/

/-- Where a run fails, the text in front of the fault is the front of one that the plan takes, unless
it failed at an unknown word. -/
theorem Runs.viable {plan : Plan α} {text rest : List Char} {reason : ParseReason}
    (runs : Runs plan text (.error ⟨reason, rest⟩)) (signed : plan.Signed)
    (hopeful : plan.Hopeful) (known : ∀ keyword, reason ≠ .unknownType keyword) :
    Viable plan text rest := by
  generalize same : (.error ⟨reason, rest⟩ : Except Fault (α × List Char)) = outcome at runs
  induction runs with
  | done => cases same
  | fail =>
    cases same
    obtain ⟨keyword, unknown⟩ := hopeful
    exact absurd unknown (known keyword)
  | taken eaten _ ih =>
    exact (ih signed.2 hopeful.2 same).sign signed.1 eaten fun tokens a fits => ⟨tokens, rfl, fits⟩
  | absent =>
    cases same
    obtain ⟨other, _, a, ⟨tokens, rfl, fits⟩, spells⟩ := hopeful.1
    exact viable_here ⟨tokens, rfl, fits⟩ spells
  | yes eaten _ ih =>
    exact (ih signed.2.1 hopeful.1 same).sign signed.1 eaten fun tokens a fits =>
      .inl ⟨tokens, rfl, fits⟩
  | no _ _ ih =>
    obtain ⟨front, later, tokens, a, split, fits, spells⟩ := ih signed.2.2.1 hopeful.2 same
    exact ⟨front, later, tokens, a, split, .inr fits, spells⟩
  | @word _ next text _ behind ih =>
    obtain ⟨⟨other, _, a, ⟨letters, tokens, rfl, fits⟩, spells⟩, ⟨stop, empty⟩, each⟩ := hopeful
    by_cases none : wordOf text = []
    -- An empty word fails where it stands, and the plan can be finished with another word there.
    · rw [none, empty, afterWord_of_empty none] at behind
      cases behind
      cases same
      exact viable_here ⟨letters, tokens, rfl, fits⟩ spells
    · obtain ⟨parted, hopeful⟩ := each _ none
      have word : Spells text [.word (wordOf text)] (afterWord text) :=
        spells_word.mpr ⟨none, rfl, .done _⟩
      exact (ih (signed.2 _) hopeful same).parted word parted fun tokens a fits =>
        ⟨_, tokens, rfl, fits⟩
  | named read _ ih =>
    obtain ⟨label, names, label⟩ := parseName_eq_ok_iff.mp read
    obtain ⟨parted, _, hopeful⟩ := hopeful _
    exact (ih (signed _) hopeful same).parted label parted fun tokens a fits =>
      ⟨_, _, tokens, rfl, names, fits⟩
  | unnamed failed =>
    cases same
    exact viable_name (fun name => (hopeful name).2.1) failed
  | called first _ _ ih =>
    obtain ⟨tokens, fitsFirst, spells⟩ := first.spelled (signed_of _)
    obtain ⟨parted, _, hopeful⟩ := hopeful _
    exact (ih (signed _) hopeful same).parted spells parted fun tokens a fits =>
      ⟨_, _, tokens, rfl, means_of_fits fitsFirst, fits⟩
  | failed _ ih =>
    cases same
    obtain ⟨front, later, tokens, b, rfl, fits, spells⟩ := ih (signed_of _) (hopeful_of _) rfl
    obtain ⟨parted, ⟨other, more, a, fitsNext, spellsNext⟩, _⟩ := hopeful b
    obtain ⟨used, split, followed⟩ := spells.followed parted fitsNext
    refine ⟨front, later ++ other, _, a, rfl, ⟨tokens, b, more, rfl, means_of_fits fits, fitsNext⟩, ?_⟩
    rw [← List.append_assoc, split, List.append_nil]
    exact followed other spellsNext

end PluginBridge.Ty
