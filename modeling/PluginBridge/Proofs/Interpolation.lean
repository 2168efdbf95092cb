import Mathlib.Data.List.TakeWhile
import PluginBridge.Interpolation.Split

/-! A text is split at its placeholders in one way only, if each of them is the first that can begin.
The scan from the left finds this split, and the expansion of the text is what is left when the
placeholders of the split are replaced. -/

namespace PluginBridge.Interpolation

/-! ## One placeholder -/

theorem takeWhile_append_stop {holds : Char → Bool} {front rest : List Char} {stop : Char}
    (each : ∀ c ∈ front, holds c = true) (stops : holds stop = false) :
    (front ++ stop :: rest).takeWhile holds = front := by
  rw [List.takeWhile_append_of_pos each, List.takeWhile_cons_of_neg (Bool.eq_false_iff.mp stops),
    List.append_nil]

theorem dropWhile_append_stop {holds : Char → Bool} {front rest : List Char} {stop : Char}
    (each : ∀ c ∈ front, holds c = true) (stops : holds stop = false) :
    (front ++ stop :: rest).dropWhile holds = stop :: rest := by
  rw [List.dropWhile_append_of_pos each, List.dropWhile_cons_of_neg (Bool.eq_false_iff.mp stops)]

theorem ending?_eq_some_iff {name text rest : List Char} {found : Placeholder} :
    ending? name text = some (found, rest) ↔ found.name = name ∧
      (∀ fallback, found.fallback = some fallback → fallback ≠ [] ∧ '\x7d' ∉ fallback) ∧
      text = found.ending ++ rest := by
  constructor
  · intro ends
    unfold ending? at ends
    split at ends
    · obtain ⟨rfl, rfl⟩ := Prod.mk.inj (Option.some.inj ends)
      exact ⟨rfl, nofun, rfl⟩
    next behind =>
      split at ends
      next c fallback d after taken dropped =>
        obtain ⟨rfl, rfl⟩ := Prod.mk.inj (Option.some.inj ends)
        have split : behind = c :: fallback ++ d :: after := by
          rw [← taken, ← dropped, List.takeWhile_append_dropWhile]
        have closed : '\x7d' ∉ c :: fallback := by
          intro inside
          rw [← taken] at inside
          simpa using List.mem_takeWhile_imp inside
        have brace : d = '\x7d' := by
          have stops := List.head?_dropWhile_not (· != '\x7d') behind
          rw [dropped] at stops
          simpa using stops
        refine ⟨rfl, ?_, ?_⟩
        · rintro _ ⟨⟩
          exact ⟨List.cons_ne_nil c fallback, closed⟩
        · rw [split, brace, Placeholder.ending, List.append_assoc]
          rfl
      · cases ends
    · cases ends
  · rintro ⟨rfl, filled, rfl⟩
    obtain ⟨name, fallback⟩ := found
    cases fallback with
    | none => rfl
    | some fallback =>
      obtain ⟨nonempty, closed⟩ := filled fallback rfl
      obtain ⟨c, others, rfl⟩ := List.exists_cons_of_ne_nil nonempty
      have opened : ∀ d ∈ c :: others, (d != '\x7d') = true := by
        intro d inside
        rw [bne_iff_ne]
        rintro rfl
        exact closed inside
      have behind : (c :: others ++ '\x7d' :: rest).takeWhile (· != '\x7d') = c :: others ∧
          (c :: others ++ '\x7d' :: rest).dropWhile (· != '\x7d') = '\x7d' :: rest :=
        ⟨takeWhile_append_stop opened (bne_self_eq_false _),
          dropWhile_append_stop opened (bne_self_eq_false _)⟩
      have written : Placeholder.ending ⟨name, some (c :: others)⟩ ++ rest =
          ':' :: (c :: others ++ '\x7d' :: rest) := by
        simp [Placeholder.ending]
      rw [written, ending?, behind.1, behind.2]

/-- Names end in front of a character that is none of theirs, and an ending begins with one. -/
theorem ending_stops (placeholder : Placeholder) (rest : List Char) :
    ∃ stop more, placeholder.ending ++ rest = stop :: more ∧ isNameCharacter stop = false := by
  unfold Placeholder.ending
  split
  · exact ⟨'\x7d', rest, rfl, by decide⟩
  · exact ⟨':', _, rfl, by decide⟩

/-- The scan finds a placeholder exactly where one is written. -/
theorem placeholder?_eq_some_iff {text rest : List Char} {found : Placeholder} :
    placeholder? text = some (found, rest) ↔ found.Proper ∧ text = found.text ++ rest := by
  constructor
  · intro starts
    unfold placeholder? at starts
    split at starts
    next inner =>
      split at starts
      · cases starts
      next nameless =>
        obtain ⟨named, filled, behind⟩ := ending?_eq_some_iff.mp starts
        have spelled : ∀ c ∈ found.name, isNameCharacter c = true := by
          rw [named]
          exact fun _ => List.mem_takeWhile_imp
        refine ⟨⟨named ▸ nameless, spelled, filled⟩, ?_⟩
        rw [Placeholder.text, named, List.cons_append, List.cons_append, List.append_assoc, ← behind,
          List.takeWhile_append_dropWhile]
    · cases starts
  · rintro ⟨⟨named, spelled, filled⟩, rfl⟩
    obtain ⟨stop, more, ends, stops⟩ := ending_stops found rest
    have behind : (found.name ++ stop :: more).takeWhile isNameCharacter = found.name ∧
        (found.name ++ stop :: more).dropWhile isNameCharacter = stop :: more :=
      ⟨takeWhile_append_stop spelled stops, dropWhile_append_stop spelled stops⟩
    rw [Placeholder.text, List.cons_append, List.cons_append, List.append_assoc, ends, placeholder?,
      behind.1, behind.2]
    split
    next nameless => exact absurd nameless named
    next => exact ending?_eq_some_iff.mpr ⟨rfl, filled, ends.symm⟩

theorem begins_iff {text : List Char} :
    Begins text ↔ ∃ found rest, placeholder? text = some (found, rest) := by
  simp only [placeholder?_eq_some_iff]
  constructor
  · rintro ⟨found, proper, rest, rfl⟩
    exact ⟨found, rest, proper, rfl⟩
  · rintro ⟨found, rest, proper, rfl⟩
    exact ⟨found, proper, rest, rfl⟩

theorem begins_text {placeholder : Placeholder} (proper : placeholder.Proper) (rest : List Char) :
    Begins (placeholder.text ++ rest) :=
  ⟨placeholder, proper, List.prefix_append _ rest⟩

instance (text : List Char) : Decidable (Begins text) :=
  decidable_of_iff ((placeholder? text).isSome = true) <| by
    rw [begins_iff, Option.isSome_iff_exists, Prod.exists]

/-- At most one placeholder begins in one place. -/
theorem Placeholder.Proper.unique {one other : Placeholder} (proper : one.Proper)
    (again : other.Proper) {rest after : List Char} (same : one.text ++ rest = other.text ++ after) :
    one = other ∧ rest = after := by
  have first : placeholder? (one.text ++ rest) = some (one, rest) :=
    placeholder?_eq_some_iff.mpr ⟨proper, rfl⟩
  have second := placeholder?_eq_some_iff.mpr ⟨again, same⟩
  exact Prod.mk.inj (Option.some.inj (first.symm.trans second))

/-! ## Splits -/

namespace Split

theorem begins_hole (plain : List Char) {placeholder : Placeholder} (proper : placeholder.Proper)
    (rest : Split) : Begins ((hole plain placeholder rest).text.drop plain.length) := by
  rw [text, List.drop_left]
  exact begins_text proper rest.text

theorem length_lt_text (plain : List Char) (placeholder : Placeholder) (rest : Split) :
    plain.length < (hole plain placeholder rest).text.length := by
  rw [text, Placeholder.text, List.length_append, List.length_append, List.length_cons]
  omega

/-- A text has one split whose placeholders are the first that can begin. -/
theorem Leftmost.unique {one other : Split} (leftmost : one.Leftmost) (again : other.Leftmost)
    (same : one.text = other.text) : one = other := by
  induction one generalizing other with
  | last plain =>
    cases other with
    | last other => exact congrArg last same
    | hole before placeholder rest =>
      have begins := begins_hole before again.1 rest
      rw [← same] at begins
      have inside := (length_lt_text before placeholder rest).trans_eq (congrArg _ same.symm)
      exact absurd begins (leftmost _ inside)
  | hole plain placeholder rest ih =>
    cases other with
    | last other =>
      have begins := begins_hole plain leftmost.1 rest
      rw [same] at begins
      have inside := (length_lt_text plain placeholder rest).trans_eq (congrArg _ same)
      exact absurd begins (again _ inside)
    | hole before found more =>
      -- Neither placeholder begins inside the plain text in front of the other.
      have long : plain.length = before.length := by
        refine Nat.le_antisymm (Nat.not_lt.mp fun shorter => ?_) (Nat.not_lt.mp fun longer => ?_)
        · exact leftmost.2.1 _ shorter (same ▸ begins_hole before again.1 more)
        · exact again.2.1 _ longer (same ▸ begins_hole plain leftmost.1 rest)
      obtain ⟨rfl, behind⟩ := List.append_inj same long
      obtain ⟨rfl, later⟩ := leftmost.1.unique again.1 behind
      rw [ih leftmost.2.2 again.2.2 later]

def push (c : Char) : Split → Split
  | last plain => last (c :: plain)
  | hole plain placeholder rest => hole (c :: plain) placeholder rest

theorem text_push (c : Char) (split : Split) : (split.push c).text = c :: split.text := by
  cases split <;> rfl

theorem filled_push (read? : String → Option String) (c : Char) (split : Split) :
    (split.push c).filled read? = c :: split.filled read? := by
  cases split <;> rfl

theorem Leftmost.push {c : Char} {split : Split} (leftmost : split.Leftmost)
    (absent : ¬ Begins (c :: split.text)) : (split.push c).Leftmost := by
  cases split with
  | last plain =>
    rintro (_ | position) inside
    · exact absent
    · exact leftmost position (Nat.lt_of_succ_lt_succ inside)
  | hole plain placeholder rest =>
    obtain ⟨proper, clear, later⟩ := leftmost
    refine ⟨proper, ?_, later⟩
    rintro (_ | position) inside
    · exact absent
    · exact clear position (Nat.lt_of_succ_lt_succ inside)

/-- Pieces, with plain characters that stand side by side taken together. -/
def ofPieces : List Piece → Split
  | [] => last []
  | .plain c :: rest => (ofPieces rest).push c
  | .hole placeholder :: rest => hole [] placeholder (ofPieces rest)

theorem filled_ofPieces (read? : String → Option String) (pieces : List Piece) :
    (ofPieces pieces).filled read? = pieces.flatMap (·.value read?) := by
  induction pieces with
  | nil => rfl
  | cons piece rest ih =>
    rw [List.flatMap_cons, ← ih]
    cases piece with
    | plain c => exact filled_push read? c (ofPieces rest)
    | hole placeholder => rfl

/-- The scan finds the split whose placeholders are the first that can begin. -/
theorem ofPieces_pieces (text : List Char) :
    (ofPieces (pieces text)).text = text ∧ (ofPieces (pieces text)).Leftmost := by
  fun_induction pieces text with
  | case1 text found rest starts _ ih =>
    obtain ⟨proper, rfl⟩ := placeholder?_eq_some_iff.mp starts
    refine ⟨?_, proper, nofun, ih.2⟩
    rw [ofPieces, Split.text, ih.1]
    rfl
  | case2 => exact ⟨rfl, nofun⟩
  | case3 c rest absent ih =>
    rw [ofPieces, text_push, ih.1]
    refine ⟨rfl, ih.2.push ?_⟩
    rw [ih.1, begins_iff]
    simp [absent]

end Split

/-- The text has exactly one split into plain text and placeholders, if each placeholder is the
first that begins at or behind the end of the one before and none begins inside plain text. The
expansion is this split with the value of each placeholder in its place: what is put in is not
looked at again, and all plain text is kept. -/
theorem expand_leftmost (read? : String → Option String) (text : String) :
    ∃ split : Split, (split.text = text.toList ∧ split.Leftmost) ∧
      (∀ other : Split, other.text = text.toList → other.Leftmost → other = split) ∧
      (expand read? text).toList = split.filled read? := by
  obtain ⟨same, leftmost⟩ := Split.ofPieces_pieces text.toList
  refine ⟨Split.ofPieces (pieces text.toList), ⟨same, leftmost⟩, ?_, ?_⟩
  · intro other written first
    exact first.unique leftmost (written.trans same.symm)
  · rw [expand, String.toList_ofList, Split.filled_ofPieces]

section Example

/-- A default with an opening in it, an empty default, and a value that looks like a placeholder. -/
def nested : Split :=
  .hole ['a'] ⟨['B'], some ['$', '\x7b', 'C']⟩
    (.hole ['-', '$', '\x7b', 'D', ':', '\x7d'] ⟨['E'], none⟩ (.last []))

theorem nested_leftmost : nested.Leftmost := by
  refine ⟨⟨nofun, List.forall_mem_singleton.mpr rfl, ?_⟩, by decide,
    ⟨nofun, List.forall_mem_singleton.mpr rfl, nofun⟩, by decide, nofun⟩
  rintro _ ⟨⟩
  decide

theorem expand_leftmost_nested :
    expand (fun name => [("E", "$\x7bB\x7d")].lookup name)
      "a$\x7bB:$\x7bC\x7d-$\x7bD:\x7d$\x7bE\x7d" = "a$\x7bC-$\x7bD:\x7d$\x7bB\x7d" := by
  obtain ⟨split, _, unique, filled⟩ := expand_leftmost
    (fun name => [("E", "$\x7bB\x7d")].lookup name) "a$\x7bB:$\x7bC\x7d-$\x7bD:\x7d$\x7bE\x7d"
  obtain rfl := unique nested (by decide) nested_leftmost
  rw [← String.toList_inj, filled]
  decide

end Example

/-- Only those variables matter whose names the text asks for. -/
theorem expand_congr {read? other? : String → Option String} {text : String}
    (agree : ∀ name ∈ names text, read? name = other? name) :
    expand read? text = expand other? text := by
  have values : ∀ piece ∈ pieces text.toList, piece.value read? = piece.value other? := by
    intro piece inside
    cases piece with
    | plain c => rfl
    | hole found =>
      have asked : String.ofList found.name ∈ names text :=
        List.mem_filterMap.mpr ⟨.hole found, inside, rfl⟩
      rw [Piece.value, Piece.value, Placeholder.value, Placeholder.value, agree _ asked]
  rw [expand, expand, List.flatMap_def, List.flatMap_def, List.map_congr_left values]

end PluginBridge.Interpolation
