import PluginBridge.Document
import PluginBridge.Text.Digit

/-!
# Scalars of TOML

Truth values, numbers, dates and times. In numbers single underscores may stand between digits, and
a number that is too large cannot be read. A date or a time is a table of one member that holds its
usual text.
-/
namespace PluginBridge.Toml

/-- Digits with single underscores between them. -/
def grouped? (base : Nat) (text : List Char) : Option (List Nat × List Char) :=
  let isPart (c : Char) : Bool := c == '_' || (Text.digit? base c).isSome
  let run := text.takeWhile isPart
  let doubled := (run.zip (run.drop 1)).any fun (a, b) => a == '_' && b == '_'
  if run.isEmpty ∨ run.head? = some '_' ∨ run.getLast? = some '_' ∨ doubled then none
  else some (run.filterMap (Text.digit? base), text.dropWhile isPart)

/-- An integer of at most 128 bits, with or without a sign. -/
def integer (n : Int) : Document :=
  if -0x80000000000000000000000000000000 ≤ n ∧ n < 0x100000000000000000000000000000000 then .integer n
  else .unreadable

def based? (base : Nat) (text : List Char) : Option Document := do
  match ← grouped? base text with
  | (digits, []) => some (integer (Text.ofDigits base digits))
  | _ => none

/-- The exponent of a float, zero if there is none. Nothing may follow it. -/
def exponent? (text : List Char) : Option Int := do
  match text with
  | [] => some 0
  | c :: rest =>
    if c = 'e' ∨ c = 'E' then
      let (down, rest) := match rest with
        | '+' :: rest => (false, rest)
        | '-' :: rest => (true, rest)
        | rest => (false, rest)
      match ← grouped? 10 rest with
      | (digits, []) =>
        let n : Int := Text.ofDigits 10 digits
        some (if down then -n else n)
      | _ => none
    else none

def float (negative : Bool) (whole fraction : List Nat) (exponent : Int) : Document :=
  let digits := Text.ofDigits 10 (whole ++ fraction)
  let number := Binary64.ofDecimal negative digits (exponent - fraction.length)
  if number.isFinite then .real number else .unreadable

def decimal? (negative : Bool) (text : List Char) : Option Document := do
  let (whole, rest) ← grouped? 10 text
  if 1 < whole.length ∧ whole.head? = some 0 then none
  else match rest with
    | [] =>
      let n : Int := Text.ofDigits 10 whole
      some (integer (if negative then -n else n))
    | '.' :: rest => do
      let (fraction, rest) ← grouped? 10 rest
      some (float negative whole fraction (← exponent? rest))
    | rest => do some (float negative whole [] (← exponent? rest))

def unsigned? (negative : Bool) (text : List Char) : Option Document :=
  match text with
  | ['i', 'n', 'f'] => some (.real (.infinity negative))
  | ['n', 'a', 'n'] => some (.real .quietNaN)
  | text => decimal? negative text

def number? : List Char → Option Document
  | '0' :: 'x' :: rest => based? 16 rest
  | '0' :: 'o' :: rest => based? 8 rest
  | '0' :: 'b' :: rest => based? 2 rest
  | '+' :: rest => unsigned? false rest
  | '-' :: rest => unsigned? true rest
  | text => unsigned? false text

/-! ## Dates and times -/

def fixed? (count : Nat) (text : List Char) : Option (Nat × List Char) := do
  let digits ← (text.take count).mapM (Text.digit? 10)
  if digits.length = count then some (Text.ofDigits 10 digits, text.drop count) else none

def padded (width n : Nat) : String :=
  let digits := Nat.toDigits 10 n
  String.ofList (List.replicate (width - digits.length) '0' ++ digits)

def daysIn (year month : Nat) : Nat :=
  if month = 2 then
    if (year % 4 = 0 ∧ year % 100 ≠ 0) ∨ year % 400 = 0 then 29 else 28
  else if month ∈ [4, 6, 9, 11] then 30
  else 31

def date? (text : List Char) : Option (String × List Char) := do
  let (year, rest) ← fixed? 4 text
  let ('-' :: rest) := rest | none
  let (month, rest) ← fixed? 2 rest
  let ('-' :: rest) := rest | none
  let (day, rest) ← fixed? 2 rest
  if 1 ≤ month ∧ month ≤ 12 ∧ 1 ≤ day ∧ day ≤ daysIn year month then
    some (s!"{padded 4 year}-{padded 2 month}-{padded 2 day}", rest)
  else none

/-- Parts of a second: at most nine digits count, and zeros at the end are left out. -/
def subsecond? : List Char → Option (String × List Char)
  | '.' :: text =>
    match Text.digits 10 text with
    | ([], _) => none
    | (digits, rest) =>
      let shown := ((digits.take 9).reverse.dropWhile (· == 0)).reverse
      if shown.isEmpty then some ("", rest)
      else some ("." ++ String.join (shown.map toString), rest)
  | text => some ("", text)

def seconds? : List Char → Option (Nat × String × List Char)
  | ':' :: text => do
    let (second, rest) ← fixed? 2 text
    let (subsecond, rest) ← subsecond? rest
    some (second, subsecond, rest)
  | text => some (0, "", text)

def time? (text : List Char) : Option (String × List Char) := do
  let (hour, rest) ← fixed? 2 text
  let (':' :: rest) := rest | none
  let (minute, rest) ← fixed? 2 rest
  let (second, subsecond, rest) ← seconds? rest
  if hour ≤ 23 ∧ minute ≤ 59 ∧ second ≤ 60 then
    some (s!"{padded 2 hour}:{padded 2 minute}:{padded 2 second}{subsecond}", rest)
  else none

/-- The distance from universal time, which may be left out. Nothing may follow it. No distance is
written with a plus sign. -/
def offset? : List Char → Option String
  | [] => some ""
  | ['Z'] | ['z'] => some "Z"
  | sign :: text => do
    if sign ≠ '+' ∧ sign ≠ '-' then none
    let (hour, rest) ← fixed? 2 text
    let (':' :: rest) := rest | none
    let (minute, []) ← fixed? 2 rest | none
    if hour ≤ 23 ∧ minute ≤ 59 then
      let sign := if hour = 0 ∧ minute = 0 then "+" else sign.toString
      some s!"{sign}{padded 2 hour}:{padded 2 minute}"
    else none

def datetime? (text : List Char) : Option String :=
  match date? text with
  | some (date, []) => some date
  | some (date, mark :: rest) => do
    if mark ≠ 'T' ∧ mark ≠ 't' ∧ mark ≠ ' ' then none
    let (time, rest) ← time? rest
    let offset ← offset? rest
    some (date ++ "T" ++ time ++ offset)
  | none =>
    match time? text with
    | some (time, []) => some time
    | _ => none

def datetimeMember : String := "$__toml_private_datetime"

/-! ## Scalars -/

def isScalarCharacter (c : Char) : Bool :=
  c.isAlphanum || c == '+' || c == '-' || c == '_' || c == '.' || c == ':'

/-- The characters of a scalar at the front of a text. A time may follow a date after one blank. -/
def scalarText (text : List Char) : List Char × List Char :=
  let word := text.takeWhile isScalarCharacter
  let rest := text.dropWhile isScalarCharacter
  match date? word, rest with
  | some (_, []), ' ' :: next =>
    if (fixed? 2 next).isSome then
      (word ++ ' ' :: next.takeWhile isScalarCharacter, next.dropWhile isScalarCharacter)
    else (word, rest)
  | _, _ => (word, rest)

/-- A scalar that is no string. -/
def scalar? (text : List Char) : Option (Document × List Char) := do
  let (word, rest) := scalarText text
  if word = "true".toList then some (.bool true, rest)
  else if word = "false".toList then some (.bool false, rest)
  else match datetime? word with
    | some written => some (.table [(datetimeMember, .string written)], rest)
    | none => do some (← number? word, rest)

end PluginBridge.Toml
