import PluginBridge.Decimal.Json
import PluginBridge.Document
import PluginBridge.Text.Digit

/-!
# JSON documents, read

The grammar of JSON over the characters of a text. Values nested deeper than `depthLimit`, numbers
out of range and strings with half a surrogate pair are well formed but unreadable, and so is an
object with such a name.
-/
namespace PluginBridge.Document

namespace JsonText

/-- At most so many arrays and objects are nested in a readable value. -/
def depthLimit : Nat := 127

def isSpace (c : Char) : Bool :=
  c == ' ' || c == '\n' || c == '\t' || c == '\r'

def skipSpace (text : List Char) : List Char :=
  text.dropWhile isSpace

/-- The exponent at the front of a text, if there is a mark: its sign and digits. -/
def exponent? (text : List Char) : Option (Option (Bool × List Nat) × List Char) :=
  match text with
  | c :: rest =>
    if c = 'e' ∨ c = 'E' then
      let (down, rest) := match rest with
        | '+' :: rest => (false, rest)
        | '-' :: rest => (true, rest)
        | rest => (false, rest)
      match Text.digits 10 rest with
      | ([], _) => none
      | (ds, rest) => some (some (down, ds), rest)
    else some (none, text)
  | [] => some (none, text)

def fraction? (text : List Char) : Option (Option (List Nat) × List Char) :=
  match text with
  | '.' :: rest =>
    match Text.digits 10 rest with
    | ([], _) => none
    | (ds, rest) => some (some ds, rest)
  | _ => some (none, text)

/-- The numeral at the front of a text. A whole part of several digits has no leading zero. -/
def numeral? (text : List Char) : Option (Decimal.Numeral × List Char) := do
  let (negative, text) := match text with
    | '-' :: rest => (true, rest)
    | _ => (false, text)
  let (whole, text) := Text.digits 10 text
  if whole.isEmpty ∨ (1 < whole.length ∧ whole.head? = some 0) then none
  else
    let (fraction, text) ← fraction? text
    let (exponent, text) ← exponent? text
    some (⟨negative, whole, fraction, exponent⟩, text)

/-- A piece of a string: a character, or a unit of UTF-16 given by its number. -/
inductive Piece where
  | char (c : Char)
  | unit (n : Nat)

def simpleEscape? : Char → Option Char
  | '"' => some '"'
  | '\\' => some '\\'
  | '/' => some '/'
  | 'b' => some '\x08'
  | 'f' => some '\x0c'
  | 'n' => some '\n'
  | 'r' => some '\r'
  | 't' => some '\t'
  | _ => none

def pieces? : List Char → Option (List Piece × List Char)
  | [] => none
  | '"' :: rest => some ([], rest)
  | '\\' :: 'u' :: a :: b :: c :: d :: rest => do
    let a ← Text.digit? 16 a
    let b ← Text.digit? 16 b
    let c ← Text.digit? 16 c
    let d ← Text.digit? 16 d
    let (pieces, rest) ← pieces? rest
    some (.unit (((a * 16 + b) * 16 + c) * 16 + d) :: pieces, rest)
  | '\\' :: c :: rest => do
    let c ← simpleEscape? c
    let (pieces, rest) ← pieces? rest
    some (.char c :: pieces, rest)
  | c :: rest =>
    if c.toNat < 0x20 then none
    else do
      let (pieces, rest) ← pieces? rest
      some (.char c :: pieces, rest)

/-- The characters of the pieces; none if half a surrogate pair is among them. -/
def assemble? : List Piece → Option (List Char)
  | [] => some []
  | .char c :: rest => (assemble? rest).map (c :: ·)
  | .unit high :: .unit low :: rest =>
    if 0xD800 ≤ high ∧ high < 0xDC00 then
      if 0xDC00 ≤ low ∧ low < 0xE000 then
        (assemble? rest).map (Char.ofNat (0x10000 + (high - 0xD800) * 0x400 + (low - 0xDC00)) :: ·)
      else none
    else if 0xDC00 ≤ high ∧ high < 0xE000 then none
    else (assemble? (.unit low :: rest)).map (Char.ofNat high :: ·)
  | .unit n :: rest =>
    if 0xD800 ≤ n ∧ n < 0xE000 then none else (assemble? rest).map (Char.ofNat n :: ·)

/-- The string behind an opening quote: its text, if it has one, and what follows. -/
def string? (text : List Char) : Option (Option String × List Char) := do
  let (pieces, rest) ← pieces? text
  some ((assemble? pieces).map String.ofList, rest)

def word? (word : String) (document : Document) (text : List Char) :
    Option (Document × List Char) :=
  if word.toList.isPrefixOf text then some (document, text.drop word.length) else none

/-- The object of the members, unless one of the names is unreadable. -/
def ofMembers (members : List (Option String × Document)) : Document :=
  match members.mapM fun (name?, document) => name?.map (·, document) with
  | some members => table members
  | none => unreadable

mutual

/-- The value at the front of a text. `depth` more levels are readable; `fuel` bounds the steps. -/
def value? : Nat → Nat → List Char → Option (Document × List Char)
  | 0, _, _ => none
  | fuel + 1, depth, text =>
    match skipSpace text with
    | '"' :: rest => do
      let (string?, rest) ← string? rest
      some ((string?.map string).getD unreadable, rest)
    | '[' :: rest => do
      let (items, rest) ← match skipSpace rest with
        | ']' :: rest => some ([], rest)
        | _ => items? fuel (depth - 1) rest
      some (if depth = 0 then unreadable else array items, rest)
    | '\x7b' :: rest => do
      let (members, rest) ← match skipSpace rest with
        | '\x7d' :: rest => some ([], rest)
        | _ => members? fuel (depth - 1) rest
      some (if depth = 0 then unreadable else ofMembers members, rest)
    | 'n' :: _ => word? "null" null (skipSpace text)
    | 't' :: _ => word? "true" (bool true) (skipSpace text)
    | 'f' :: _ => word? "false" (bool false) (skipSpace text)
    | start => do
      let (numeral, rest) ← numeral? start
      match numeral.meaning with
      | .integer n => some (integer n, rest)
      | .real number => some (real number, rest)
      | .outOfRange => some (unreadable, rest)

def items? : Nat → Nat → List Char → Option (List Document × List Char)
  | 0, _, _ => none
  | fuel + 1, depth, text => do
    let (item, rest) ← value? fuel depth text
    match skipSpace rest with
    | ']' :: rest => some ([item], rest)
    | ',' :: rest => do
      let (items, rest) ← items? fuel depth rest
      some (item :: items, rest)
    | _ => none

def members? : Nat → Nat → List Char → Option (List (Option String × Document) × List Char)
  | 0, _, _ => none
  | fuel + 1, depth, text => do
    match skipSpace text with
    | '"' :: rest => do
      let (name?, rest) ← string? rest
      match skipSpace rest with
      | ':' :: rest => do
        let (content, rest) ← value? fuel depth rest
        match skipSpace rest with
        | '\x7d' :: rest => some ([(name?, content)], rest)
        | ',' :: rest => do
          let (members, rest) ← members? fuel depth rest
          some ((name?, content) :: members, rest)
        | _ => none
      | _ => none
    | _ => none

end

end JsonText

/-- The document that a whole JSON text is, with a limit on the depth of readable values. -/
def ofJsonWithin? (depth : Nat) (text : String) : Option Document := do
  let chars := text.toList
  let (document, rest) ← JsonText.value? (2 * chars.length + 2) depth chars
  if (JsonText.skipSpace rest).isEmpty then some document else none

def ofJson? (text : String) : Option Document :=
  ofJsonWithin? JsonText.depthLimit text

end Document

def Json.parse? (text : String) : Option Json :=
  (Document.ofJson? text).bind Document.toJson?

end PluginBridge
