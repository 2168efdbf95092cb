import PluginBridge.Interpolation

/-!
# Texts with placeholders

What a placeholder looks like, where one begins, and how a text is split at its placeholders, said
without a scan of the text.
-/
namespace PluginBridge.Interpolation

namespace Placeholder

def ending (placeholder : Placeholder) : List Char :=
  match placeholder.fallback with
  | none => ['\x7d']
  | some fallback => ':' :: fallback ++ ['\x7d']

def text (placeholder : Placeholder) : List Char :=
  '$' :: '\x7b' :: (placeholder.name ++ placeholder.ending)

/-- The name has one or more characters, all of names, and so has the default, if there is one; the
default holds no closing brace. -/
structure Proper (placeholder : Placeholder) : Prop where
  named : placeholder.name ≠ []
  spelled : ∀ c ∈ placeholder.name, isNameCharacter c = true
  filled : ∀ fallback, placeholder.fallback = some fallback → fallback ≠ [] ∧ '\x7d' ∉ fallback

end Placeholder

/-- A placeholder begins where the text does. -/
def Begins (text : List Char) : Prop :=
  ∃ placeholder : Placeholder, placeholder.Proper ∧ placeholder.text <+: text

inductive Split where
  | last (plain : List Char)
  | hole (plain : List Char) (placeholder : Placeholder) (rest : Split)
deriving DecidableEq, Inhabited

namespace Split

def text : Split → List Char
  | last plain => plain
  | hole plain placeholder rest => plain ++ (placeholder.text ++ rest.text)

/-- The text with the value of each placeholder in its place. -/
def filled (read? : String → Option String) : Split → List Char
  | last plain => plain
  | hole plain placeholder rest => plain ++ (placeholder.value read? ++ rest.filled read?)

/-- Each placeholder is the first that begins at or behind the end of the one before it: none begins
inside plain text, even if it would end beyond that. -/
def Leftmost : Split → Prop
  | last plain => ∀ position < plain.length, ¬ Begins (plain.drop position)
  | hole plain placeholder rest =>
    placeholder.Proper ∧
      (∀ position < plain.length,
        ¬ Begins ((hole plain placeholder rest).text.drop position)) ∧
      rest.Leftmost

end Split

end PluginBridge.Interpolation
