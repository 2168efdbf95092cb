import PluginBridge.Ty.Parser

/-!
# Type expressions, read by byte positions

A reader that keeps the whole text and the number of bytes behind it. A part of the text from or up
to a byte exists only between two characters, so a reader that once cut a character has no outcome at
all.
-/
namespace PluginBridge.Ty

/-- The text from a byte on. There is none from inside a character or from behind the end. -/
def from? : Nat → List Char → Option (List Char)
  | 0, text => some text
  | _ + 1, [] => none
  | n + 1, c :: rest => if c.utf8Size ≤ n + 1 then from? (n + 1 - c.utf8Size) rest else none

def upTo? : Nat → List Char → Option (List Char)
  | 0, _ => some []
  | _ + 1, [] => none
  | n + 1, c :: rest =>
    if c.utf8Size ≤ n + 1 then (upTo? (n + 1 - c.utf8Size) rest).map (c :: ·) else none

/-- The bytes in front of the first character with a property. -/
def index? (p : Char → Bool) : List Char → Option Nat
  | [] => none
  | c :: rest => if p c then some 0 else (index? p rest).map (c.utf8Size + ·)

/-- The name that stands in front of a closing quote, and the byte at which the quote stands, if the
text begins at the given byte. -/
def closing? : Nat → List Char → Option (List Char × Nat)
  | _, [] => none
  | i, '"' :: _ => some ([], i)
  | i, '\\' :: c :: rest =>
    (closing? (i + '\\'.utf8Size + c.utf8Size) rest).map fun (name, i) => (c :: name, i)
  | i, c :: rest =>
    if c = '\\' then none else (closing? (i + c.utf8Size) rest).map fun (name, i) => (c :: name, i)

/-- An action of the reader: it moves over the text, fails at its position, or cuts a character. -/
abbrev Cursor (α : Type) : Type :=
  StateT Nat (ExceptT ParseError Option) α

namespace Cursor

variable {α : Type} (input : List Char)

def cut (part : Option (List Char)) : Cursor (List Char) := fun pos =>
  ExceptT.mk (part.map fun text => .ok (text, pos))

def unread : Cursor (List Char) := do
  cut (from? (← get) input)

def since (start : Nat) : Cursor (List Char) := do
  let pos ← get
  cut (from? start input >>= upTo? (pos - start))

def advance (bytes : Nat) : Cursor Unit :=
  modify (· + bytes)

def refuse (reason : ParseReason) : Cursor α := do
  throw ⟨← get, reason⟩

def skipBlank : Cursor Unit := do
  let text ← unread input
  advance (byteLength text - byteLength (Text.dropBlank text))

/-- Moves over a sign, if it comes next, but over blank characters in any case. -/
def eat (sign : Char) : Cursor Bool := do
  skipBlank input
  let text ← unread input
  if text.head? = some sign then
    advance sign.utf8Size
    return true
  else
    return false

def expect (sign : Char) : Cursor Unit := do
  if ← eat input sign then
    return ()
  else
    refuse (.expected sign)

def word : Cursor (List Char) := do
  let start ← get
  let text ← unread input
  advance ((index? (fun c => !isNameChar c) text).getD (byteLength input - start))
  since input start

def name : Cursor String := do
  if ← eat input '"' then
    let text ← unread input
    match closing? 0 text with
    | some (name, i) =>
      advance (i + 1)
      return String.ofList name
    | none =>
      modify fun _ => byteLength input
      refuse .unterminatedName
  else
    let letters ← word input
    if letters.isEmpty then
      refuse .expectedName
    else
      return String.ofList letters

def contained (make : Ty → Ty) (inside : Cursor Ty) : Cursor Ty := do
  expect input '('
  let item ← inside
  expect input ')'
  return make item

def listed (opening closing : Char) (nothing : Ty) (make : α → Ty) (many : Cursor α) :
    Cursor Ty := do
  expect input '('
  expect input opening
  if ← eat input closing then
    expect input ')'
    return nothing
  else
    let found ← many
    expect input ')'
    return make found

def others (closing : Char) (only : α) (more : α → α) (many : Cursor α) : Cursor α := do
  if ← eat input closing then
    return only
  else
    expect input ','
    let rest ← many
    return more rest

mutual

def ty : Nat → Cursor Ty
  | 0 => refuse .expectedKeyword
  | fuel + 1 => do
    skipBlank input
    let letters ← word input
    match String.ofList letters with
    | "any" => return .any
    | "bool" => return .bool
    | "number" => return .number
    | "string" => return .string
    | "list" => contained input .list (ty fuel)
    | "set" => contained input .set (ty fuel)
    | "map" => contained input .map (ty fuel)
    | "tuple" => listed input '[' ']' (.tuple []) .tuple (items fuel)
    | "object" =>
      listed input '\x7b' '\x7d' (.object []) (fun found => .object (Fields.ofList found))
        (attributes fuel)
    | "" => refuse .expectedKeyword
    | keyword => refuse (.unknownType keyword)

def items : Nat → Cursor (List Ty)
  | 0 => refuse .expectedKeyword
  | fuel + 1 => do
    let item ← ty fuel
    others input ']' [item] (item :: ·) (items fuel)

def attributes : Nat → Cursor (List (String × Ty))
  | 0 => refuse .expectedKeyword
  | fuel + 1 => do
    let name ← name input
    expect input '='
    let item ← ty fuel
    others input '\x7d' [(name, item)] ((name, item) :: ·) (attributes fuel)

end

def whole : Cursor Ty := do
  let found ← ty input (2 * input.length + 2)
  skipBlank input
  if (← get) = byteLength input then
    return found
  else
    refuse .trailingInput

/-- What comes of a text that is read from its first byte: nothing if a character is ever cut. -/
def parse (text : String) : Option (Except ParseError Ty) :=
  ((whole text.toList).run' 0).run

end Cursor

end PluginBridge.Ty
