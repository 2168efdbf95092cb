import PluginBridge.Proofs.TypeParsing
import PluginBridge.Ty.Cursor

/-! Reading by byte positions comes to the same as reading what is left of a text. The position always
stands between two characters, so no character is ever cut. -/

namespace PluginBridge.Ty

/-! ## Positions -/

theorem byteLength_append (front text : List Char) :
    byteLength (front ++ text) = byteLength front + byteLength text := by
  induction front with
  | nil => simp [byteLength]
  | cons c front ih => simp [byteLength, ih, Nat.add_assoc]

theorem from_cons (c : Char) (n : Nat) (rest : List Char) :
    from? (c.utf8Size + n) (c :: rest) = from? n rest := by
  obtain ⟨size, positive⟩ : ∃ size, c.utf8Size = size + 1 :=
    ⟨c.utf8Size - 1, by have := c.utf8Size_pos; omega⟩
  rw [positive, Nat.add_right_comm, from?, positive, if_pos (by omega)]
  congr 1
  omega

theorem upTo_cons (c : Char) (n : Nat) (rest : List Char) :
    upTo? (c.utf8Size + n) (c :: rest) = (upTo? n rest).map (c :: ·) := by
  obtain ⟨size, positive⟩ : ∃ size, c.utf8Size = size + 1 :=
    ⟨c.utf8Size - 1, by have := c.utf8Size_pos; omega⟩
  rw [positive, Nat.add_right_comm, upTo?, positive, if_pos (by omega)]
  congr 2
  omega

theorem from_byteLength (front text : List Char) :
    from? (byteLength front) (front ++ text) = some text := by
  induction front with
  | nil => cases text <;> rfl
  | cons c front ih => rw [byteLength, List.cons_append, from_cons, ih]

theorem upTo_byteLength (front text : List Char) :
    upTo? (byteLength front) (front ++ text) = some front := by
  induction front with
  | nil => cases text <;> rfl
  | cons c front ih =>
    rw [byteLength, List.cons_append, upTo_cons, ih]
    rfl

/-- So many bytes of the input stand in front of the text that is left. -/
def At (input : List Char) (pos : Nat) (text : List Char) : Prop :=
  ∃ front, input = front ++ text ∧ byteLength front = pos

section At

variable {input text : List Char} {pos : Nat}

theorem At.forward {front : List Char} (here : At input pos (front ++ text)) :
    At input (pos + byteLength front) text := by
  obtain ⟨before, rfl, rfl⟩ := here
  exact ⟨before ++ front, by simp, byteLength_append ..⟩

theorem At.rest (here : At input pos text) : from? pos input = some text := by
  obtain ⟨front, rfl, rfl⟩ := here
  exact from_byteLength front text

theorem At.length (here : At input pos text) : pos + byteLength text = byteLength input := by
  obtain ⟨front, rfl, rfl⟩ := here
  exact (byteLength_append front text).symm

theorem At.suffix {rest : List Char} (here : At input pos text) (later : rest <:+ text) :
    At input (pos + (byteLength text - byteLength rest)) rest := by
  obtain ⟨front, rfl⟩ := later
  rw [byteLength_append, Nat.add_sub_cancel_right]
  exact here.forward

end At

theorem index_getD (text : List Char) :
    (index? (fun c => !isNameChar c) text).getD (byteLength text) =
      byteLength (text.takeWhile isNameChar) := by
  induction text with
  | nil => rfl
  | cons c rest ih =>
    by_cases named : isNameChar c = true
    · simp only [index?, named, List.takeWhile_cons, if_true, byteLength]
      rw [← ih]
      cases index? (fun c => !isNameChar c) rest <;> simp
    · simp [index?, named, byteLength]

/-- The closing quote stands in front of what is left behind a name. -/
theorem closing_eq {text name rest : List Char} (i : Nat)
    (read : quotedName? text = some (name, rest)) :
    ∃ j, closing? i text = some (name, j) ∧ j + 1 + byteLength rest = i + byteLength text := by
  fun_induction quotedName? text generalizing name rest i with
  | case1 => cases read
  | case2 after =>
    cases read
    have single : '"'.utf8Size = 1 := by decide
    refine ⟨i, rfl, ?_⟩
    simp only [byteLength, single]
    omega
  | case3 c after ih =>
    obtain ⟨⟨inner, behind⟩, inside, same⟩ := Option.map_eq_some_iff.mp read
    cases same
    obtain ⟨j, closing, length⟩ := ih (i + '\\'.utf8Size + c.utf8Size) inside
    refine ⟨j, by simp [closing?, closing], ?_⟩
    simp only [byteLength]
    omega
  | case4 => cases read
  | case5 c after unquoted paired unescaped ih =>
    obtain ⟨⟨inner, behind⟩, inside, same⟩ := Option.map_eq_some_iff.mp read
    cases same
    obtain ⟨j, closing, length⟩ := ih (i + c.utf8Size) inside
    refine ⟨j, by simp [closing?, unescaped, closing], ?_⟩
    simp only [byteLength]
    omega

theorem closing_eq_none {text : List Char} (i : Nat) (unclosed : quotedName? text = none) :
    closing? i text = none := by
  fun_induction quotedName? text generalizing i with
  | case1 => rfl
  | case2 => cases unclosed
  | case3 c after ih => simp [closing?, ih _ (Option.map_eq_none_iff.mp unclosed)]
  | case4 rest unquoted alone =>
    cases rest with
    | nil => rfl
    | cons c rest => exact (alone c rest rfl rfl).elim
  | case5 c after unquoted paired unescaped ih =>
    simp [closing?, unescaped, ih _ (Option.map_eq_none_iff.mp unclosed)]

/-! ## Actions -/

section Actions

variable {α β : Type}

def Cursor.at (action : Cursor α) (pos : Nat) : Option (Except ParseError (α × Nat)) :=
  (action.run pos).run

theorem bind_at_ok {action : Cursor α} {next : α → Cursor β} {pos later : Nat} {a : α}
    (moves : action.at pos = some (.ok (a, later))) :
    (action >>= next).at pos = (next a).at later := by
  unfold Cursor.at at *
  rw [StateT.run_bind, ExceptT.run_bind, moves]
  rfl

theorem bind_at_error {action : Cursor α} {next : α → Cursor β} {pos : Nat} {error : ParseError}
    (fails : action.at pos = some (.error error)) : (action >>= next).at pos = some (.error error) := by
  unfold Cursor.at at *
  rw [StateT.run_bind, ExceptT.run_bind, fails]
  rfl

theorem pure_at (a : α) (pos : Nat) : (pure a : Cursor α).at pos = some (.ok (a, pos)) :=
  rfl

theorem refuse_at (reason : ParseReason) (pos : Nat) :
    (Cursor.refuse reason : Cursor α).at pos = some (.error ⟨pos, reason⟩) :=
  rfl

theorem get_at (pos : Nat) : (get : Cursor Nat).at pos = some (.ok (pos, pos)) :=
  rfl

theorem advance_at (bytes pos : Nat) : (Cursor.advance bytes).at pos = some (.ok ((), pos + bytes)) :=
  rfl

variable {input text : List Char} {pos : Nat}

theorem unread_at (here : At input pos text) :
    (Cursor.unread input).at pos = some (.ok (text, pos)) := by
  have slice := here.rest
  unfold Cursor.unread
  rw [bind_at_ok (get_at pos), slice]
  rfl

theorem skipBlank_at (here : At input pos text) : ∃ later,
    (Cursor.skipBlank input).at pos = some (.ok ((), later)) ∧
      At input later (Text.dropBlank text) := by
  refine ⟨_, ?_, here.suffix (dropBlank_suffix text)⟩
  rw [Cursor.skipBlank, bind_at_ok (unread_at here), advance_at]

theorem eat_at_some {sign : Char} {rest : List Char} (here : At input pos text)
    (eaten : eat? sign text = some rest) : ∃ later,
      (Cursor.eat input sign).at pos = some (.ok (true, later)) ∧ At input later rest := by
  obtain ⟨middle, skipped, there⟩ := skipBlank_at here
  have dropped := eat_eq_some_iff.mp eaten
  rw [dropped] at there
  refine ⟨_, ?_, At.forward (List.singleton_append ▸ there)⟩
  rw [Cursor.eat, bind_at_ok skipped, bind_at_ok (unread_at there), if_pos List.head?_cons,
    bind_at_ok (advance_at _ _)]
  rfl

theorem eat_at_none {sign : Char} (here : At input pos text) (missing : eat? sign text = none) :
    ∃ later, (Cursor.eat input sign).at pos = some (.ok (false, later)) ∧
      At input later (Text.dropBlank text) := by
  obtain ⟨middle, skipped, there⟩ := skipBlank_at here
  refine ⟨_, ?_, there⟩
  rw [Cursor.eat, bind_at_ok skipped, bind_at_ok (unread_at there),
    if_neg (eat_eq_none_iff.mp missing)]
  rfl

theorem expect_at_some {sign : Char} {rest : List Char} (here : At input pos text)
    (eaten : eat? sign text = some rest) : ∃ later,
      (Cursor.expect input sign).at pos = some (.ok ((), later)) ∧ At input later rest := by
  obtain ⟨later, found, there⟩ := eat_at_some here eaten
  exact ⟨later, bind_at_ok found, there⟩

theorem expect_at_none {sign : Char} (here : At input pos text) (missing : eat? sign text = none) :
    ∃ later, (Cursor.expect input sign).at pos = some (.error ⟨later, .expected sign⟩) ∧
      At input later (Text.dropBlank text) := by
  obtain ⟨later, absent, there⟩ := eat_at_none here missing
  exact ⟨later, bind_at_ok absent, there⟩

theorem word_at (here : At input pos text) : ∃ later,
    (Cursor.word input).at pos = some (.ok (text.takeWhile isNameChar, later)) ∧
      At input later (text.dropWhile isNameChar) := by
  have split : text.takeWhile isNameChar ++ text.dropWhile isNameChar = text :=
    List.takeWhile_append_dropWhile
  have length := here.length
  have found : (index? (fun c => !isNameChar c) text).getD (byteLength input - pos) =
      byteLength (text.takeWhile isNameChar) := by
    rw [← length, Nat.add_sub_cancel_left, index_getD]
  refine ⟨pos + byteLength (text.takeWhile isNameChar), ?_, At.forward (split.symm ▸ here)⟩
  rw [Cursor.word, bind_at_ok (get_at pos), bind_at_ok (unread_at here), found,
    bind_at_ok (advance_at _ _), Cursor.since, bind_at_ok (get_at _), here.rest]
  have slice := upTo_byteLength (text.takeWhile isNameChar) (text.dropWhile isNameChar)
  rw [split] at slice
  simp only [Option.bind_some, Option.bind_eq_bind, Nat.add_sub_cancel_left, slice]
  rfl

/-- An action comes to the outcome, and its position to the text that is left. -/
def Tracks (input : List Char) (outcome : Except Fault (α × List Char)) (action : Cursor α)
    (pos : Nat) : Prop :=
  match outcome with
  | .ok (a, rest) => ∃ later, action.at pos = some (.ok (a, later)) ∧ At input later rest
  | .error fault => ∃ later, action.at pos = some (.error ⟨later, fault.reason⟩) ∧
      At input later fault.rest

theorem Tracks.behind {outcome : Except Fault (β × List Char)} {first : Cursor α}
    {next : α → Cursor β} {later : Nat} {a : α} (moves : first.at pos = some (.ok (a, later)))
    (tracks : Tracks input outcome (next a) later) : Tracks input outcome (first >>= next) pos := by
  unfold Tracks at *
  rw [bind_at_ok moves]
  exact tracks

theorem name_tracks (here : At input pos text) :
    Tracks input (parseName text) (Cursor.name input) pos := by
  unfold parseName
  split
  next inner eaten =>
    obtain ⟨middle, found, there⟩ := eat_at_some here eaten
    refine .behind found (.behind (unread_at there) ?_)
    split
    next name rest read =>
      obtain ⟨j, closing, length⟩ := closing_eq 0 read
      obtain ⟨written, _, rfl⟩ := quotedName_eq_some_iff.mp read
      have behind := there.suffix ((List.suffix_cons '"' rest).trans (List.suffix_append written _))
      rw [closing]
      refine ⟨middle + (j + 1), rfl, ?_⟩
      rwa [show byteLength (written ++ '"' :: rest) - byteLength rest = j + 1 by omega] at behind
    next unclosed =>
      rw [closing_eq_none 0 unclosed]
      exact ⟨byteLength input, rfl, input, by simp, rfl⟩
  next missing =>
    obtain ⟨middle, absent, there⟩ := eat_at_none here missing
    obtain ⟨later, letters, behind⟩ := word_at there
    refine .behind absent (.behind letters ?_)
    dsimp only
    split
    next empty =>
      refine ⟨later, rfl, ?_⟩
      rwa [← afterWord, afterWord_of_empty (List.isEmpty_iff.mp empty)] at behind
    next => exact ⟨later, rfl, behind⟩

/-! ## The reader follows the plan -/

/-- On the text that is left the plan has a run, and the action comes to its outcome. -/
def Steers (input : List Char) (plan : Plan α) (text : List Char) (action : Cursor α) : Prop :=
  ∀ pos, At input pos text → ∃ outcome, Runs plan text outcome ∧ Tracks input outcome action pos

section Steers

variable {sign : Char}

theorem Steers.done (a : α) : Steers input (.done a) text (pure a) := fun pos here =>
  ⟨_, .done a text, pos, rfl, here⟩

theorem Steers.fail (reason : ParseReason) :
    Steers (α := α) input (.fail reason) text (Cursor.refuse reason) := fun pos here =>
  ⟨_, .fail reason text, pos, rfl, here⟩

theorem Steers.take {next : Plan α} {action : Cursor α}
    (later : ∀ rest, rest.length < text.length → Steers input next rest action) :
    Steers input (.take sign next) text (do
      Cursor.expect input sign
      action) := by
  intro pos here
  match eaten : eat? sign text with
  | some rest =>
    obtain ⟨middle, found, there⟩ := expect_at_some here eaten
    obtain ⟨outcome, runs, tracks⟩ := later rest (length_of_eat eaten) middle there
    exact ⟨outcome, .taken eaten runs, .behind found tracks⟩
  | none =>
    obtain ⟨middle, absent, there⟩ := expect_at_none here eaten
    exact ⟨_, .absent eaten, middle, bind_at_error absent, there⟩

theorem Steers.choose {yes no : Plan α} {present missing : Cursor α} (filled : no.Filled)
    (some : ∀ rest, rest.length < text.length → Steers input yes rest present)
    (none : Steers input no (Text.dropBlank text) missing) :
    Steers input (.choose sign yes no) text (do
      if ← Cursor.eat input sign then present else missing) := by
  intro pos here
  match eaten : eat? sign text with
  | .some rest =>
    obtain ⟨middle, found, there⟩ := eat_at_some here eaten
    obtain ⟨outcome, runs, tracks⟩ := some rest (length_of_eat eaten) middle there
    exact ⟨outcome, .yes eaten runs, .behind found tracks⟩
  | .none =>
    obtain ⟨middle, absent, there⟩ := eat_at_none here eaten
    obtain ⟨outcome, runs, tracks⟩ := none middle there
    exact ⟨outcome, .no eaten (runs.of_dropBlank filled), .behind absent tracks⟩

theorem Steers.call {part : Part} {next : part.Result → Plan α} {first : Cursor part.Result}
    {action : part.Result → Cursor α} (steers : Steers input (Plan.of part) text first)
    (later : ∀ a rest, rest.length ≤ text.length → Steers input (next a) rest (action a)) :
    Steers input (.call part next) text (first >>= action) := by
  intro pos here
  obtain ⟨outcome, runs, tracks⟩ := steers pos here
  match outcome, runs, tracks with
  | .error fault, runs, ⟨middle, fails, there⟩ =>
    exact ⟨_, .failed runs, middle, bind_at_error fails, there⟩
  | .ok (a, rest), runs, ⟨middle, moves, there⟩ =>
    obtain ⟨outcome, behind, tracks⟩ := later a rest runs.suffix.1.length_le middle there
    exact ⟨outcome, .called runs behind, .behind moves tracks⟩

theorem Steers.name {next : String → Plan α} {action : String → Cursor α}
    (later : ∀ name rest, rest.length ≤ text.length → Steers input (next name) rest (action name)) :
    Steers input (.name next) text (Cursor.name input >>= action) := by
  intro pos here
  have tracks := name_tracks here
  match read : parseName text with
  | .error fault =>
    rw [read] at tracks
    obtain ⟨middle, fails, there⟩ := tracks
    exact ⟨_, .unnamed read, middle, bind_at_error fails, there⟩
  | .ok (name, rest) =>
    rw [read] at tracks
    obtain ⟨middle, moves, there⟩ := tracks
    have shorter : rest.length ≤ text.length :=
      ((suffix_of_parseName read).trans (dropBlank_suffix text)).length_le
    obtain ⟨outcome, behind, tracks⟩ := later name rest shorter middle there
    exact ⟨outcome, .named read behind, .behind moves tracks⟩

def Cursor.behind (input : List Char) (fuel : Nat) (letters : List Char) : Cursor Ty :=
  match announced letters with
  | .scalar found => pure found
  | .container make => Cursor.contained input make (Cursor.ty input fuel)
  | .tuple => Cursor.listed input '[' ']' (.tuple []) .tuple (Cursor.items input fuel)
  | .object => Cursor.listed input '\x7b' '\x7d' (.object []) (fun found =>
      .object (Fields.ofList found)) (Cursor.attributes input fuel)
  | .nothing => Cursor.refuse .expectedKeyword
  | .unknown => Cursor.refuse (.unknownType (String.ofList letters))

theorem Cursor.ty_succ (fuel : Nat) : Cursor.ty input (fuel + 1) = (do
    Cursor.skipBlank input
    let letters ← Cursor.word input
    Cursor.behind input fuel letters) := by
  rw [Cursor.ty]
  refine bind_congr fun _ => bind_congr fun letters => ?_
  unfold Cursor.behind announced
  generalize String.ofList letters = keyword
  split
  case h_11 => simp only [*]
  all_goals rfl

theorem Steers.contained (make : Ty → Ty) {inside : Cursor Ty}
    (later : ∀ rest, rest.length < text.length → Steers input (Plan.of .ty) rest inside) :
    Steers input (Plan.container make) text (Cursor.contained input make inside) :=
  .take fun inner shorter => .call (later inner shorter) fun item _ _ =>
    .take fun _ _ => .done (make item)

theorem Steers.listed {opening closing : Char} {part : Part} {nothing : Ty}
    {make : part.Result → Ty} {many : Cursor part.Result}
    (later : ∀ rest, rest.length < text.length → Steers input (Plan.of part) rest many) :
    Steers input (Plan.listed opening closing part nothing make) text
      (Cursor.listed input opening closing nothing make many) := by
  refine .take fun brackets shorter => .take fun inner inside => .choose trivial ?_ ?_
  · exact fun _ _ => .take fun _ _ => .done nothing
  · have fewer := (dropBlank_suffix inner).length_le
    exact .call (later _ (by omega)) fun found _ _ => .take fun _ _ => .done (make found)

theorem Steers.others {closing : Char} {part : Part} {only : part.Result}
    {more : part.Result → part.Result} {many : Cursor part.Result}
    (later : ∀ rest, rest.length < text.length → Steers input (Plan.of part) rest many) :
    Steers input (Plan.others closing part only more) text
      (Cursor.others input closing only more many) := by
  refine .choose trivial (fun _ _ => .done only) (.take fun rest shorter => ?_)
  have fewer := (dropBlank_suffix text).length_le
  exact .call (later rest (by omega)) fun found _ _ => .done (more found)

/-- With more units of fuel than characters, twice, the reader follows the plan. -/
structure Steady (input : List Char) (fuel : Nat) : Prop where
  ty : ∀ text, 2 * text.length < fuel → Steers input (Plan.of .ty) text (Cursor.ty input fuel)
  items : ∀ text, 2 * text.length + 1 < fuel →
    Steers input (Plan.of .items) text (Cursor.items input fuel)
  attributes : ∀ text, 2 * text.length + 1 < fuel →
    Steers input (Plan.of .attributes) text (Cursor.attributes input fuel)

variable {fuel : Nat} (steady : Steady input fuel)
include steady

theorem steers_behind {letters : List Char} (enough : 2 * text.length < fuel + 1) :
    Steers input (Plan.behind letters) text (Cursor.behind input fuel letters) := by
  unfold Plan.behind Cursor.behind
  cases announced letters with
  | scalar found => exact .done found
  | container make => exact .contained make fun rest shorter => steady.ty rest (by omega)
  | tuple => exact .listed fun rest shorter => steady.items rest (by omega)
  | object => exact .listed fun rest shorter => steady.attributes rest (by omega)
  | nothing | unknown => exact .fail _

theorem steers_ty (enough : 2 * text.length < fuel + 1) :
    Steers input (Plan.of .ty) text (Cursor.ty input (fuel + 1)) := by
  intro pos here
  obtain ⟨start, skipped, there⟩ := skipBlank_at here
  obtain ⟨later, letters, behind⟩ := word_at there
  have shorter : (afterWord text).length ≤ text.length :=
    ((List.dropWhile_suffix _).trans (dropBlank_suffix text)).length_le
  have enoughBehind : 2 * (afterWord text).length < fuel + 1 := by omega
  obtain ⟨outcome, runs, tracks⟩ := steers_behind steady enoughBehind later behind
  rw [Cursor.ty_succ]
  exact ⟨outcome, .word runs, .behind skipped (.behind letters tracks)⟩

theorem steers_items (enough : 2 * text.length + 1 < fuel + 1) :
    Steers input (Plan.of .items) text (Cursor.items input (fuel + 1)) := by
  rw [Cursor.items]
  refine .call (steady.ty text (by omega)) fun item rest shorter => ?_
  exact .others fun rest less => steady.items rest (by omega)

theorem steers_attributes (enough : 2 * text.length + 1 < fuel + 1) :
    Steers input (Plan.of .attributes) text (Cursor.attributes input (fuel + 1)) := by
  rw [Cursor.attributes]
  refine .name fun name spelled shorter => .take fun inner inside => ?_
  refine .call (steady.ty inner (by omega)) fun item after _ => ?_
  exact .others fun rest less => steady.attributes rest (by omega)

end Steers

theorem steady (input : List Char) (fuel : Nat) : Steady input fuel := by
  induction fuel with
  | zero => constructor <;> intros <;> omega
  | succ fuel ih =>
    exact ⟨fun _ => steers_ty ih, fun _ => steers_items ih, fun _ => steers_attributes ih⟩

/-- An action fails where the text that is left begins. -/
theorem At.offset {rest : List Char} (here : At input pos rest) :
    byteLength input - byteLength rest = pos := by
  rw [← here.length, Nat.add_sub_cancel_right]

theorem whole_tracks (input : List Char) :
    match parseAll input with
    | .ok found => ∃ later, (Cursor.whole input).at 0 = some (.ok (found, later))
    | .error fault => (Cursor.whole input).at 0 =
        some (.error ⟨byteLength input - byteLength fault.rest, fault.reason⟩) := by
  have enough : 2 * input.length < 2 * input.length + 2 := by omega
  obtain ⟨outcome, runs, tracks⟩ := (steady input _).ty input enough 0 ⟨[], rfl, rfl⟩
  match outcome, runs, tracks with
  | .error fault, runs, ⟨later, fails, there⟩ =>
    rw [parseAll_of_error runs]
    dsimp only
    rw [Cursor.whole, bind_at_error fails, there.offset]
  | .ok (found, rest), runs, ⟨later, moves, there⟩ =>
    obtain ⟨last, skipped, there⟩ := skipBlank_at there
    have length := there.length
    match visible : Text.dropBlank rest with
    | [] =>
      rw [parseAll_of_blank runs visible]
      rw [visible, byteLength, Nat.add_zero] at length
      refine ⟨last, ?_⟩
      rw [Cursor.whole, bind_at_ok moves, bind_at_ok skipped, bind_at_ok (get_at last),
        if_pos length, pure_at]
    | c :: more =>
      rw [parseAll_of_cons runs visible]
      dsimp only
      rw [visible] at there length
      have short : last ≠ byteLength input := by
        have positive := c.utf8Size_pos
        rw [byteLength] at length
        omega
      rw [Cursor.whole, bind_at_ok moves, bind_at_ok skipped, bind_at_ok (get_at last),
        if_neg short, refuse_at, there.offset]

end Actions

/-- A reader that goes by bytes never cuts a character, and comes to what the parser comes to. -/
theorem cursor_parse (text : String) : Cursor.parse text = some (Ty.parse text) := by
  have run : Cursor.parse text = ((Cursor.whole text.toList).at 0).map (·.map (·.1)) := by
    rw [Cursor.parse, StateT.run'_eq, ExceptT.run_map]
    rfl
  have tracks := whole_tracks text.toList
  unfold Ty.parse
  match parsed : parseAll text.toList with
  | .ok found =>
    rw [parsed] at tracks
    obtain ⟨later, moves⟩ := tracks
    rw [run, moves]
    rfl
  | .error fault =>
    rw [parsed] at tracks
    rw [run, tracks]
    rfl

end PluginBridge.Ty
