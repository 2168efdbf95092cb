/-!
# Placeholders

A text may hold placeholders `${NAME}` and `${NAME:DEFAULT}`. One pass from the left replaces each
by the variable of that name, or by the default where there is none. What was put in is not looked
at again, and all other text stays as it is.
-/
namespace PluginBridge.Interpolation

structure Placeholder where
  name : List Char
  fallback : Option (List Char)
deriving DecidableEq, Inhabited

/-- Names are made of capital letters, digits and underscores. -/
def isNameCharacter (c : Char) : Bool :=
  ('A' ≤ c && c ≤ 'Z') || ('0' ≤ c && c ≤ '9') || c == '_'

/-- The end of a placeholder behind its name, and what follows it. A default is not empty and goes
up to the next closing brace. -/
def ending? (name : List Char) : List Char → Option (Placeholder × List Char)
  | '\x7d' :: rest => some (⟨name, none⟩, rest)
  | ':' :: rest =>
    match rest.takeWhile (· != '\x7d'), rest.dropWhile (· != '\x7d') with
    | c :: fallback, _ :: rest => some (⟨name, some (c :: fallback)⟩, rest)
    | _, _ => none
  | _ => none

def placeholder? : List Char → Option (Placeholder × List Char)
  | '$' :: '\x7b' :: text =>
    match text.takeWhile isNameCharacter with
    | [] => none
    | name => ending? name (text.dropWhile isNameCharacter)
  | _ => none

theorem length_dropWhile_le {α : Type} (holds : α → Bool) (items : List α) :
    (items.dropWhile holds).length ≤ items.length :=
  (List.dropWhile_sublist holds).length_le

theorem length_of_ending? {name text rest : List Char} {found : Placeholder}
    (ends : ending? name text = some (found, rest)) : rest.length < text.length := by
  unfold ending? at ends
  split at ends
  · simp only [Option.some.injEq, Prod.mk.injEq] at ends
    obtain ⟨-, rfl⟩ := ends
    simp
  · rename_i behind
    split at ends
    · rename_i _ _ dropped
      simp only [Option.some.injEq, Prod.mk.injEq] at ends
      obtain ⟨-, rfl⟩ := ends
      have shorter := length_dropWhile_le (· != '\x7d') behind
      rw [dropped] at shorter
      simp only [List.length_cons] at shorter ⊢
      omega
    · cases ends
  · cases ends

/-- A placeholder takes up some of the text. -/
theorem length_of_placeholder? {text rest : List Char} {found : Placeholder}
    (starts : placeholder? text = some (found, rest)) : rest.length < text.length := by
  unfold placeholder? at starts
  split at starts
  · rename_i inner
    split at starts
    · cases starts
    · have shorter := length_of_ending? starts
      have := length_dropWhile_le isNameCharacter inner
      simp only [List.length_cons]
      omega
  · cases starts

inductive Piece where
  | plain (c : Char)
  | hole (found : Placeholder)
deriving DecidableEq, Inhabited

/-- Splits a text from the left; a placeholder begins wherever one can. -/
def pieces (text : List Char) : List Piece :=
  match starts : placeholder? text with
  | some (found, rest) =>
    have := length_of_placeholder? starts
    .hole found :: pieces rest
  | none =>
    match text with
    | [] => []
    | c :: rest => .plain c :: pieces rest
termination_by text.length
decreasing_by all_goals simp_all

def names (text : String) : List String :=
  (pieces text.toList).filterMap fun
    | .hole found => some (String.ofList found.name)
    | .plain _ => none

/-- The variable's value, else the default, else nothing. -/
def Placeholder.value (read? : String → Option String) (placeholder : Placeholder) :
    List Char :=
  match read? (String.ofList placeholder.name) with
  | some text => text.toList
  | none => placeholder.fallback.getD []

def Piece.value (read? : String → Option String) : Piece → List Char
  | plain c => [c]
  | hole found => found.value read?

def expand (read? : String → Option String) (text : String) : String :=
  String.ofList ((pieces text.toList).flatMap (·.value read?))

end PluginBridge.Interpolation
