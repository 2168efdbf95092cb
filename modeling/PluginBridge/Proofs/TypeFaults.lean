import PluginBridge.Proofs.TypeCompletion
import PluginBridge.Proofs.TypeCursor

/-! Where type expressions go wrong. What stands in front of a fault is the front of an expression,
and no expression goes on with the character at the fault. -/

namespace PluginBridge.Ty

variable {α : Type}

/-! ## Nothing behind the fault matters -/

theorem head_beyond (middle : List Char) (c : Char) (more later : List Char) :
    (middle ++ c :: more).head? = (middle ++ c :: later).head? := by
  cases middle <;> rfl

theorem closes_beyond {middle : List Char} {c : Char} {more : List Char} (later : List Char)
    (closes : Closes (middle ++ c :: more)) : Closes (middle ++ c :: later) := by
  unfold Closes
  rw [head_beyond middle c later more]
  exact closes

/-- Tokens in front of a character are the same whatever stands behind it. -/
theorem Spells.beyond {front middle more : List Char} {c : Char} {tokens : List Token}
    (spells : Spells (front ++ c :: more) tokens (middle ++ c :: more)) (later : List Char) :
    Spells (front ++ c :: later) tokens (middle ++ c :: later) := by
  obtain ⟨used, split, back⟩ := spells.exchange
  rw [← List.append_assoc, List.append_left_inj] at split
  rw [split, List.append_assoc]
  exact back _ (closes_beyond later)

theorem eat_beyond {sign c : Char} {front middle more : List Char} (known : sign ∈ signs)
    (eaten : eat? sign (front ++ c :: more) = some (middle ++ c :: more)) (later : List Char) :
    eat? sign (front ++ c :: later) = some (middle ++ c :: later) := by
  have spells := (spells_mark.mpr ⟨known, _, eaten, .done _⟩).beyond later
  obtain ⟨_, after, again, same⟩ := spells_mark.mp spells
  rw [again, spells_nil.mp same]

theorem dropBlank_beyond {c : Char} {front middle more : List Char}
    (dropped : Text.dropBlank (front ++ c :: more) = middle ++ c :: more) (later : List Char) :
    Text.dropBlank (front ++ c :: later) = middle ++ c :: later := by
  obtain ⟨gap, blank, split⟩ := exists_gap (front ++ c :: more)
  rw [dropped, ← List.append_assoc, List.append_left_inj] at split
  rw [split, List.append_assoc, dropBlank_gap blank]
  cases middle with
  | nil => exact dropBlank_cons _ (isBlank_of_dropBlank dropped)
  | cons d middle => exact dropBlank_cons _ (isBlank_of_dropBlank dropped)

theorem missing_beyond {sign c : Char} {front middle more : List Char}
    (missing : eat? sign (front ++ c :: more) = none)
    (dropped : Text.dropBlank (front ++ c :: more) = middle ++ c :: more) (later : List Char) :
    eat? sign (front ++ c :: later) = none := by
  rw [eat_eq_none_iff, dropped] at missing
  rw [eat_eq_none_iff, dropBlank_beyond dropped later, head_beyond middle c later more]
  exact missing

theorem word_beyond {c : Char} {front middle more : List Char}
    (after : afterWord (front ++ c :: more) = middle ++ c :: more) (later : List Char) :
    wordOf (front ++ c :: later) = wordOf (front ++ c :: more) ∧
      afterWord (front ++ c :: later) = middle ++ c :: later := by
  have closes := closes_afterWord (front ++ c :: more)
  rw [after] at closes
  have dropped := wordOf_append_afterWord (front ++ c :: more)
  rw [after, ← List.append_assoc] at dropped
  have again := dropBlank_beyond dropped.symm later
  rw [List.append_assoc] at again
  have named : ∀ d ∈ wordOf (front ++ c :: more), isNameChar d = true := fun _ =>
    List.mem_takeWhile_imp
  constructor
  · rw [wordOf, again, takeWhile_name named (closes_beyond later closes)]
  · rw [afterWord, again, dropWhile_name named (closes_beyond later closes)]

/-- A run that fails at a character fails there whatever stands behind the character. -/
theorem Runs.beyond {plan : Plan α} {front more : List Char} {c : Char} {reason : ParseReason}
    (runs : Runs plan (front ++ c :: more) (.error ⟨reason, c :: more⟩)) (signed : plan.Signed)
    (later : List Char) : Runs plan (front ++ c :: later) (.error ⟨reason, c :: later⟩) := by
  generalize split : front ++ c :: more = text at runs
  generalize same : (.error ⟨reason, c :: more⟩ : Except Fault (α × List Char)) = outcome at runs
  induction runs generalizing front with
  | done => cases same
  | fail =>
    cases same
    obtain rfl := List.append_left_eq_self.mp split
    exact .fail reason _
  | taken eaten behind ih =>
    subst split same
    obtain ⟨middle, rfl⟩ := behind.suffix.1
    exact .taken (eat_beyond signed.1 eaten later) (ih signed.2 rfl rfl)
  | @absent _ sign next _ missing =>
    subst split
    obtain ⟨rfl, dropped⟩ := Fault.mk.inj (Except.error.inj same)
    have dropped : Text.dropBlank (front ++ c :: more) = [] ++ c :: more := dropped.symm
    have again := @Runs.absent _ sign next _ (missing_beyond missing dropped later)
    rw [dropBlank_beyond dropped later] at again
    exact again
  | yes eaten behind ih =>
    subst split same
    obtain ⟨middle, rfl⟩ := behind.suffix.1
    exact .yes (eat_beyond signed.1 eaten later) (ih signed.2.1 rfl rfl)
  | no missing behind ih =>
    subst split same
    -- The plan takes something here, so the blank characters end before the fault.
    obtain ⟨middle, dropped⟩ := behind.suffix.2 signed.2.2.2
    exact .no (missing_beyond missing dropped.symm later) (ih signed.2.2.1 rfl rfl)
  | word behind ih =>
    subst split same
    obtain ⟨middle, after⟩ := behind.suffix.1
    obtain ⟨word, rest⟩ := word_beyond after.symm later
    apply Runs.word
    rw [word, rest]
    exact ih (signed.2 _) after rfl
  | named read behind ih =>
    subst split same
    obtain ⟨middle, rfl⟩ := behind.suffix.1
    obtain ⟨label, names, spells⟩ := parseName_eq_ok_iff.mp read
    exact .named (parseName_eq_ok_iff.mpr ⟨label, names, spells.beyond later⟩)
      (ih (signed _) rfl rfl)
  | unnamed failed =>
    subst split
    cases same
    rcases parseName_error failed with ⟨missing, empty, fault⟩ | ⟨inner, _, _, fault⟩
    · obtain ⟨rfl, dropped⟩ := Fault.mk.inj fault
      have dropped : Text.dropBlank (front ++ c :: more) = [] ++ c :: more := dropped.symm
      have after := (afterWord_of_empty empty).trans dropped
      have again := parseName_of_empty (missing_beyond missing dropped later)
        ((word_beyond after later).1.trans empty)
      rw [dropBlank_beyond dropped later] at again
      exact .unnamed again
    · cases fault
  | called first behind ihFirst ihLater =>
    subst split same
    obtain ⟨middle, rfl⟩ := behind.suffix.1
    -- What the call took is spelled in front of the character, and is read there again.
    obtain ⟨tokens, fits, spells⟩ := first.spelled (signed_of _)
    exact .called (reads_of_means (means_of_fits fits) _ _ (spells.beyond later))
      (ihLater (signed _) rfl rfl)
  | failed _ ih =>
    cases same
    exact .failed (ih (signed_of _) split rfl)

/-! ## Faults of a whole text -/

/-- A text is refused inside a type or behind one. -/
theorem parseAll_error {text : List Char} {fault : Fault} (failed : parseAll text = .error fault) :
    Runs (Plan.of .ty) text (.error fault) ∨ ∃ ty rest c more,
      Runs (Plan.of .ty) text (.ok (ty, rest)) ∧ Text.dropBlank rest = c :: more ∧
      fault = ⟨.trailingInput, c :: more⟩ := by
  obtain ⟨outcome, runs⟩ := exists_run text
  match outcome, runs with
  | .error found, runs =>
    cases failed.symm.trans (parseAll_of_error runs)
    exact .inl runs
  | .ok (ty, rest), runs =>
    match visible : Text.dropBlank rest with
    | [] => cases failed.symm.trans (parseAll_of_blank runs visible)
    | c :: more =>
      cases failed.symm.trans (parseAll_of_cons runs visible)
      exact .inr ⟨ty, rest, c, more, runs, visible, rfl⟩

theorem suffix_of_parseAll {text : List Char} {fault : Fault}
    (failed : parseAll text = .error fault) : fault.rest <:+ text := by
  rcases parseAll_error failed with runs | ⟨ty, rest, c, more, runs, visible, rfl⟩
  · exact runs.suffix.1
  · rw [show c :: more = Text.dropBlank rest from visible.symm]
    exact (dropBlank_suffix rest).trans runs.suffix.1

/-- Whatever stands behind the character at a fault, the text is refused there. -/
theorem parseAll_beyond {front more : List Char} {c : Char} {reason : ParseReason}
    (failed : parseAll (front ++ c :: more) = .error ⟨reason, c :: more⟩) (later : List Char) :
    parseAll (front ++ c :: later) = .error ⟨reason, c :: later⟩ := by
  rcases parseAll_error failed with runs | ⟨ty, rest, d, after, runs, visible, fault⟩
  · exact parseAll_of_error (runs.beyond (signed_of .ty) later)
  · cases fault
    obtain ⟨gap, blank, split⟩ := exists_gap rest
    rw [visible] at split
    subst split
    obtain ⟨tokens, fits, spells⟩ := runs.spelled (signed_of .ty)
    have again := reads_of_means (means_of_fits fits) _ _ (spells.beyond later)
    refine parseAll_of_cons again ?_
    rw [dropBlank_gap blank]
    exact dropBlank_cons later (isBlank_of_dropBlank visible)

/-- What stands in front of a fault can be completed to an expression. -/
theorem parseAll_viable {front rest : List Char} {reason : ParseReason}
    (failed : parseAll (front ++ rest) = .error ⟨reason, rest⟩)
    (known : ∀ keyword, reason ≠ .unknownType keyword) :
    ∃ later ty, parseAll (front ++ later) = .ok ty := by
  rcases parseAll_error failed with runs | ⟨ty, left, c, after, runs, visible, fault⟩
  · obtain ⟨read, later, tokens, ty, split, fits, spells⟩ :=
      runs.viable (signed_of .ty) (hopeful_of .ty) known
    obtain rfl := List.append_cancel_right split
    have expression : IsExpression (front ++ later) ty :=
      ⟨tokens, [], means_of_fits fits, spells, List.forall_mem_nil _⟩
    exact ⟨later, ty, parseAll_iff.mpr expression⟩
  · cases fault
    obtain ⟨tokens, fits, spells⟩ := runs.spelled (signed_of .ty)
    obtain ⟨gap, blank, split⟩ := exists_gap left
    obtain ⟨used, whole, back⟩ := spells.exchange
    rw [split, visible, ← List.append_assoc] at whole
    obtain rfl := List.append_cancel_right whole
    have closes := closes_of_blank blank
    exact ⟨[], ty, parseAll_iff.mpr ⟨tokens, gap, means_of_fits fits, by
      simpa using back gap fun _ => closes, blank⟩⟩

theorem byteLength_toList (text : String) : byteLength text.toList = text.utf8ByteSize := by
  have counted (chars : List Char) : byteLength chars = (String.ofList chars).utf8ByteSize := by
    induction chars with
    | nil => rfl
    | cons c rest ih =>
      rw [byteLength, ih, ← List.singleton_append, String.ofList_append,
        String.utf8ByteSize_append, ← String.singleton_eq_ofList, String.utf8ByteSize_singleton]
  rw [counted, String.ofList_toList]

/-- A text that is no type expression is refused between two of its characters. No expression goes on
with the character behind that place, and what stands in front of it can be completed to one, unless
a word was unknown. Reading by bytes comes to the same, so no character is ever cut. -/
theorem parse_error_located {text : String} {error : ParseError}
    (rejected : Ty.parse text = .error error) :
    Cursor.parse text = some (.error error) ∧ error.offset ≤ text.utf8ByteSize ∧
      ∃ front back : String, text = front ++ back ∧ front.utf8ByteSize = error.offset ∧
        (∀ c more, back.toList = c :: more →
          ∀ later ty, Ty.parse (front.push c ++ later) ≠ .ok ty) ∧
        ((∀ keyword, error.reason ≠ .unknownType keyword) →
          ∃ later ty, Ty.parse (front ++ later) = .ok ty) := by
  refine ⟨(cursor_parse text).trans (congrArg some rejected), ?_⟩
  obtain ⟨reason, rest, failed, rfl⟩ : ∃ reason rest, parseAll text.toList = .error ⟨reason, rest⟩ ∧
      error = ⟨byteLength text.toList - byteLength rest, reason⟩ := by
    unfold Ty.parse at rejected
    split at rejected
    next => cases rejected
    next fault failed => exact ⟨_, _, failed, (Except.error.inj rejected).symm⟩
  obtain ⟨front, split⟩ := suffix_of_parseAll failed
  refine ⟨?_, String.ofList front, String.ofList rest, ?_, ?_, ?_, ?_⟩
  · rw [← byteLength_toList]
    exact Nat.sub_le ..
  · rw [← String.ofList_append, split, String.ofList_toList]
  · rw [← byteLength_toList, String.toList_ofList, ← split, byteLength_append,
      Nat.add_sub_cancel_right]
  · intro c more behind later ty parsed
    rw [String.toList_ofList] at behind
    subst behind
    rw [← split] at failed
    rw [parse_eq_ok_iff, String.toList_append, String.toList_push, String.toList_ofList,
      List.append_assoc, List.singleton_append] at parsed
    cases parsed.symm.trans (parseAll_beyond failed later.toList)
  · intro known
    rw [← split] at failed
    obtain ⟨later, ty, parsed⟩ := parseAll_viable failed known
    refine ⟨String.ofList later, ty, parse_eq_ok_iff.mpr ?_⟩
    rwa [String.toList_append, String.toList_ofList, String.toList_ofList]

section Example

/-- A character of several bytes stands where a comma or a bracket must. -/
def unclosed : String :=
  "object(\x7b\"ключ\" = tuple([any é"

theorem parse_error_located_unclosed : Ty.parse unclosed = .error ⟨32, .expected ','⟩ ∧
    Cursor.parse unclosed = some (.error ⟨32, .expected ','⟩) ∧ 32 ≤ unclosed.utf8ByteSize ∧
      ∃ front back : String, unclosed = front ++ back ∧ front.utf8ByteSize = 32 ∧
        (∀ c more, back.toList = c :: more →
          ∀ later ty, Ty.parse (front.push c ++ later) ≠ .ok ty) ∧
        ((∀ keyword, ParseReason.expected ',' ≠ .unknownType keyword) →
          ∃ later ty, Ty.parse (front ++ later) = .ok ty) := by
  have rejected : Ty.parse unclosed = .error ⟨32, .expected ','⟩ := by
    have failed : (match Ty.parse unclosed with
      | .error error => decide (error = ⟨32, .expected ','⟩)
      | .ok _ => false) = true := by decide +kernel
    cases parsed : Ty.parse unclosed <;> simp_all only [decide_eq_true_eq, Bool.false_eq_true]
  exact ⟨rejected, parse_error_located rejected⟩

end Example

end PluginBridge.Ty
