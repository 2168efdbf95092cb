import PluginBridge.Text.Digit

/-!
# Versions

Three numbers, `major.minor.patch`, and for a version before a release the identifiers that order it
among such versions. Build data may follow; it is checked and has no meaning.
-/
namespace PluginBridge

inductive Prerelease.Identifier where
  | number (n : Nat)
  | word (text : String)
deriving DecidableEq, Inhabited

/-- The mark of a version before a release; none for a release. -/
abbrev Prerelease := List Prerelease.Identifier

structure Version where
  major : Nat
  minor : Nat
  patch : Nat
  prerelease : Prerelease := []
deriving DecidableEq, Inhabited

namespace Prerelease

def Identifier.compare : Identifier → Identifier → Ordering
  | number m, number n => Ord.compare m n
  | number _, word _ => .lt
  | word _, number _ => .gt
  | word s, word t => Ord.compare s t

/-- The first difference decides; of two of which one continues the other, the shorter is first. -/
def compareMarks : Prerelease → Prerelease → Ordering
  | [], [] => .eq
  | [], _ :: _ => .lt
  | _ :: _, [] => .gt
  | left :: lefts, right :: rights => (left.compare right).then (compareMarks lefts rights)

/-- A release comes after all that lead to it. -/
def compare (left right : Prerelease) : Ordering :=
  match left, right with
  | [], [] => .eq
  | [], _ :: _ => .gt
  | _ :: _, [] => .lt
  | left, right => compareMarks left right

end Prerelease

namespace Version

def text (version : Version) : String :=
  s!"{version.major}.{version.minor}.{version.patch}"

/-- A number of at most 64 bits without leading zeros. -/
def number? (text : List Char) : Option (Nat × List Char) :=
  let (digits, rest) := Text.digits 10 text
  let n := Text.ofDigits 10 digits
  if digits.isEmpty ∨ (1 < digits.length ∧ digits.head? = some 0) ∨ (1 <<< 64) ≤ n then none
  else some (n, rest)

def behind? (c : Char) : List Char → Option (List Char)
  | d :: rest => if c = d then some rest else none
  | [] => none

def isIdentifierCharacter (c : Char) : Bool :=
  c.isAlphanum || c == '-'

def pointed : List Char → List (List Char)
  | [] => [[]]
  | c :: rest =>
    match pointed rest with
    | [] => [[c]]
    | part :: parts => if c = '.' then [] :: part :: parts else (c :: part) :: parts

def identifiers? (text : List Char) : Option (List (List Char) × List Char) :=
  let isPart (c : Char) : Bool := isIdentifierCharacter c || c == '.'
  let parts := pointed (text.takeWhile isPart)
  if parts.any List.isEmpty then none else some (parts, text.dropWhile isPart)

/-- An identifier of digits only is a number and has no leading zero. -/
def identifier? (text : List Char) : Option Prerelease.Identifier :=
  match Text.digits 10 text with
  | (digits, []) =>
    if 1 < digits.length ∧ digits.head? = some 0 then none
    else some (.number (Text.ofDigits 10 digits))
  | _ => some (.word (String.ofList text))

/-- The mark behind a hyphen, and the build data behind a plus sign, if they are there. -/
def suffix? (text : List Char) : Option (Prerelease × List Char) := do
  let (prerelease, rest) ← match behind? '-' text with
    | some text => do
      let (parts, rest) ← identifiers? text
      let prerelease ← parts.mapM identifier?
      some (prerelease, rest)
    | none => some ([], text)
  match behind? '+' rest with
  | some text => do
    let (_, rest) ← identifiers? text
    some (prerelease, rest)
  | none => some (prerelease, rest)

def parse? (text : String) : Option Version := do
  let (major, rest) ← number? text.toList
  let (minor, rest) ← number? (← behind? '.' rest)
  let (patch, rest) ← number? (← behind? '.' rest)
  match ← suffix? rest with
  | (prerelease, []) => some ⟨major, minor, patch, prerelease⟩
  | _ => none

end Version

end PluginBridge
