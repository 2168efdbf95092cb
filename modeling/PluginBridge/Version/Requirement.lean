import PluginBridge.Version

/-!
# Version requirements

Comparators with commas between them, all of which a version must satisfy. A comparator may leave
out the patch number, or that and the minor number. A version before a release satisfies a
requirement only if some comparator names such a version of the very same numbers.
-/
namespace PluginBridge

namespace Version

inductive Operator where
  | exact
  | greater
  | greaterEqual
  | less
  | lessEqual
  | tilde
  | caret
deriving DecidableEq, Inhabited

structure Comparator where
  operator : Operator
  major : Nat
  minor : Option Nat := none
  patch : Option Nat := none
  prerelease : Prerelease := []
deriving DecidableEq, Inhabited

/-- No comparators mean any version. -/
abbrev Requirement := List Comparator

/-! ## Satisfying -/

namespace Comparator

/-- Compares a number with one that may be left out and then equals all. -/
def compareGiven (n : Nat) : Option Nat → Ordering
  | none => .eq
  | some given => Ord.compare n given

def compareNumbers (comparator : Comparator) (version : Version) : Ordering :=
  (Ord.compare version.major comparator.major).then
    ((compareGiven version.minor comparator.minor).then
      (compareGiven version.patch comparator.patch))

def isExact (comparator : Comparator) (version : Version) : Bool :=
  comparator.compareNumbers version == .eq && version.prerelease == comparator.prerelease

/-- Whether a version lies on the side `side` of the comparator. A version with all numbers given
lies on a side only if the comparator gives a patch number, and then the marks decide. -/
def isBeyond (side : Ordering) (comparator : Comparator) (version : Version) : Bool :=
  match comparator.compareNumbers version with
  | .eq =>
    comparator.patch.isSome && version.prerelease.compare comparator.prerelease == side
  | order => order == side

def isMarkReached (comparator : Comparator) (version : Version) : Bool :=
  version.prerelease.compare comparator.prerelease != .lt

def isPatchReached (comparator : Comparator) (version : Version) : Bool :=
  match compareGiven version.patch comparator.patch with
  | .lt => false
  | .eq => comparator.isMarkReached version
  | .gt => true

/-- Only the patch number may be higher. -/
def isTilde (comparator : Comparator) (version : Version) : Bool :=
  version.major == comparator.major && compareGiven version.minor comparator.minor == .eq &&
    comparator.isPatchReached version

/-- The numbers behind the first that is not zero may be higher. -/
def isCaret (comparator : Comparator) (version : Version) : Bool :=
  version.major == comparator.major &&
    match comparator.minor, comparator.patch with
    | none, _ => true
    | some minor, none =>
      if 0 < comparator.major then minor ≤ version.minor else version.minor == minor
    | some minor, some patch =>
      if 0 < comparator.major then
        minor < version.minor || (version.minor == minor && comparator.isPatchReached version)
      else if 0 < minor then version.minor == minor && comparator.isPatchReached version
      else version.minor == minor && version.patch == patch && comparator.isMarkReached version

def isSatisfied (comparator : Comparator) (version : Version) : Bool :=
  match comparator.operator with
  | .exact => comparator.isExact version
  | .greater => comparator.isBeyond .gt version
  | .greaterEqual => comparator.isExact version || comparator.isBeyond .gt version
  | .less => comparator.isBeyond .lt version
  | .lessEqual => comparator.isExact version || comparator.isBeyond .lt version
  | .tilde => comparator.isTilde version
  | .caret => comparator.isCaret version

def admitsPrerelease (comparator : Comparator) (version : Version) : Bool :=
  comparator.major == version.major && comparator.minor == some version.minor &&
    comparator.patch == some version.patch && !comparator.prerelease.isEmpty

end Comparator

namespace Requirement

def isSatisfied (requirement : Requirement) (version : Version) : Bool :=
  requirement.all (·.isSatisfied version) &&
    (version.prerelease.isEmpty || requirement.any (·.admitsPrerelease version))

/-! ## Reading -/

def skipSpaces (text : List Char) : List Char :=
  text.dropWhile (· == ' ')

def wildcard? : List Char → Option (List Char)
  | '*' :: rest => some rest
  | 'x' :: rest => some rest
  | 'X' :: rest => some rest
  | _ => none

def operator? : List Char → Option Operator × List Char
  | '=' :: rest => (some .exact, rest)
  | '>' :: '=' :: rest => (some .greaterEqual, rest)
  | '>' :: rest => (some .greater, rest)
  | '<' :: '=' :: rest => (some .lessEqual, rest)
  | '<' :: rest => (some .less, rest)
  | '~' :: rest => (some .tilde, rest)
  | '^' :: rest => (some .caret, rest)
  | text => (none, text)

inductive Part where
  | absent
  | any
  | given (n : Nat)
deriving DecidableEq

def part? (text : List Char) : Option (Part × List Char) :=
  match behind? '.' text with
  | none => some (.absent, text)
  | some text =>
    match wildcard? text with
    | some rest => some (.any, rest)
    | none => do
      let (n, rest) ← number? text
      some (.given n, rest)

def Part.number? : Part → Option Nat
  | given n => some n
  | _ => none

/-- The comparator at the front of a text; blanks behind it are skipped. Without an operator it is a
caret, or exact if it has a number that may be any. -/
def comparator? (text : List Char) : Option (Comparator × List Char) := do
  let (operator?, rest) := operator? text
  let (major, rest) ← number? (skipSpaces rest)
  let (minor, rest) ← part? rest
  let (patch, rest) ← part? rest
  if minor = .any ∧ patch.number?.isSome then none
  let standard := if minor = .any ∨ patch = .any then .exact else .caret
  let (prerelease, rest) ← if patch.number?.isSome then suffix? rest else some ([], rest)
  some (⟨operator?.getD standard, major, minor.number?, patch.number?, prerelease⟩,
    skipSpaces rest)

/-- At most `room` comparators with commas between them. -/
def comparators? : Nat → List Char → Option Requirement
  | 0, _ => none
  | room + 1, text => do
    match ← comparator? text with
    | (comparator, []) => some [comparator]
    | (comparator, ',' :: rest) => do
      let others ← comparators? room (skipSpaces rest)
      some (comparator :: others)
    | _ => none

def parse? (text : String) : Option Requirement :=
  let start := skipSpaces text.toList
  match wildcard? start with
  | some rest => if (skipSpaces rest).isEmpty then some [] else none
  | none => comparators? 32 start

end Requirement

end Version

end PluginBridge
