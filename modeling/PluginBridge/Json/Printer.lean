import PluginBridge.Decimal.Shortest
import PluginBridge.Json

/-!
# JSON, written

Compactly or in indented lines. A double has the fewest digits that read back. It is positional,
with at least one digit after the point, from `1e-5` to below `1e16`, and else has an exponent with
its sign. Control characters, quotes and backslashes are escaped, all else stands for itself.
-/
namespace PluginBridge.Json

/-- The digits with a point in front of the last `places` of them. -/
def withPoint (digits : String) (places : Nat) : String :=
  let chars := digits.toList
  let whole := chars.length - places
  String.ofList (chars.take whole) ++ "." ++ String.ofList (chars.drop whole)

def zeros (count : Nat) : String :=
  String.ofList (List.replicate count '0')

def writeExponent (exponent : Int) : String :=
  if exponent < 0 then s!"e-{exponent.natAbs}" else s!"e+{exponent.natAbs}"

/-- A decimal number. `point` is the position of the point relative to the first digit. -/
def writeDecimal (decimal : Decimal.Scientific) : String :=
  let digits := toString decimal.digits
  let count := digits.length
  let point : Int := count + decimal.exponent
  if 0 ≤ decimal.exponent ∧ point ≤ 16 then digits ++ zeros decimal.exponent.toNat ++ ".0"
  else if 0 < point ∧ point ≤ 16 then withPoint digits (count - point.toNat)
  else if -5 < point ∧ point ≤ 0 then "0." ++ zeros (-point).toNat ++ digits
  else if count = 1 then digits ++ writeExponent (point - 1)
  else withPoint digits (count - 1) ++ writeExponent (point - 1)

def writeReal (number : Binary64) : String :=
  if !number.isFinite then "null"
  else
    let sign := if number.isNegative then "-" else ""
    sign ++ if number.isZero then "0.0" else writeDecimal (Decimal.shortest number)

def hexDigit (n : Nat) : Char :=
  if n < 10 then Char.ofNat (48 + n) else Char.ofNat (87 + n)

def escapeChar (c : Char) : List Char :=
  if c = '"' then ['\\', '"']
  else if c = '\\' then ['\\', '\\']
  else if 0x20 ≤ c.toNat then [c]
  else
    match c.toNat with
    | 8 => ['\\', 'b']
    | 9 => ['\\', 't']
    | 10 => ['\\', 'n']
    | 12 => ['\\', 'f']
    | 13 => ['\\', 'r']
    | n => ['\\', 'u', '0', '0', hexDigit (n / 16), hexDigit (n % 16)]

def writeString (text : String) : String :=
  "\"" ++ String.ofList (text.toList.flatMap escapeChar) ++ "\""

mutual

def write : Json → String
  | null => "null"
  | bool truth => if truth then "true" else "false"
  | integer n => toString n
  | real number => writeReal number
  | string text => writeString text
  | array items => "[" ++ ",".intercalate (writeItems items) ++ "]"
  | object members => "\x7b" ++ ",".intercalate (writeMembers members) ++ "\x7d"

def writeItems : List Json → List String
  | [] => []
  | item :: rest => write item :: writeItems rest

def writeMembers : List (String × Json) → List String
  | [] => []
  | (name, json) :: rest => (writeString name ++ ":" ++ write json) :: writeMembers rest

end

def lines (opening closing indent : String) (entries : List String) : String :=
  if entries.isEmpty then opening ++ closing
  else
    let inner := "\n" ++ indent ++ "  "
    opening ++ inner ++ ("," ++ inner).intercalate entries ++ "\n" ++ indent ++ closing

mutual

def prettyAt (indent : String) : Json → String
  | array items => lines "[" "]" indent (prettyItems (indent ++ "  ") items)
  | object members => lines "\x7b" "\x7d" indent (prettyMembers (indent ++ "  ") members)
  | null => "null"
  | bool truth => write (bool truth)
  | integer n => write (integer n)
  | real number => write (real number)
  | string text => write (string text)

def prettyItems (indent : String) : List Json → List String
  | [] => []
  | item :: rest => prettyAt indent item :: prettyItems indent rest

def prettyMembers (indent : String) : List (String × Json) → List String
  | [] => []
  | (name, json) :: rest =>
    (writeString name ++ ": " ++ prettyAt indent json) :: prettyMembers indent rest

end

/-- The text in lines, two blanks for each level. -/
def pretty (json : Json) : String :=
  prettyAt "" json

end PluginBridge.Json
