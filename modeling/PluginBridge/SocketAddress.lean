import PluginBridge.Text.Digit

/-!
# Socket addresses

A host address and a port: `127.0.0.1:80`, `[::1]:80`. An address of version 6 is written with its
longest run of two or more zero groups left out, the first of several; one that carries an address
of version 4 ends in it.
-/
namespace PluginBridge

inductive SocketAddress where
  | v4 (octets : List Nat) (port : Nat)
  | v6 (groups : List Nat) (scope port : Nat)
deriving DecidableEq, Inhabited

namespace SocketAddress

/-! ## Reading -/

/-- The number at the front of a text, at most `limit`. If `most` is positive, at most so many
digits. -/
def number? (base most limit : Nat) (leadingZeros : Bool) (text : List Char) :
    Option (Nat × List Char) :=
  let (ds, rest) := Text.digits base text
  let n := Text.ofDigits base ds
  if ds.isEmpty ∨ (0 < most ∧ most < ds.length) ∨ limit < n then none
  else if !leadingZeros ∧ 1 < ds.length ∧ ds.head? = some 0 then none
  else some (n, rest)

def behind? (c : Char) : List Char → Option (List Char)
  | d :: rest => if c = d then some rest else none
  | [] => none

def octet? (text : List Char) : Option (Nat × List Char) :=
  number? 10 3 255 false text

def octets? (text : List Char) : Option (List Nat × List Char) := do
  let (a, text) ← octet? text
  let text ← behind? '.' text
  let (b, text) ← octet? text
  let text ← behind? '.' text
  let (c, text) ← octet? text
  let text ← behind? '.' text
  let (d, text) ← octet? text
  some ([a, b, c, d], text)

def separator? (first : Bool) (text : List Char) : Option (List Char) :=
  if first then some text else behind? ':' text

/-- Reads at most `room` groups. The last two may be an address of version 4, and then nothing
follows them. -/
def groups : Nat → Bool → List Char → List Nat × Bool × List Char
  | 0, _, text => ([], false, text)
  | room + 1, first, text =>
    let embedded? := if room = 0 then none else (separator? first text).bind octets?
    match embedded? with
    | some (octets, rest) =>
      match octets with
      | [a, b, c, d] => ([a * 256 + b, c * 256 + d], true, rest)
      | _ => ([], true, rest)
    | none =>
      match (separator? first text).bind (number? 16 4 0xffff true) with
      | none => ([], false, text)
      | some (group, rest) =>
        let (more, embedded, rest) := groups room false rest
        (group :: more, embedded, rest)

def host6? (text : List Char) : Option (List Nat × List Char) :=
  let (front, embedded, rest) := groups 8 true text
  if front.length = 8 then some (front, rest)
  else if embedded then none
  else do
    let rest ← behind? ':' rest
    let rest ← behind? ':' rest
    let (back, _, rest) := groups (7 - front.length) true rest
    some (front ++ List.replicate (8 - front.length - back.length) 0 ++ back, rest)

def port? (text : List Char) : Option Nat := do
  let text ← behind? ':' text
  match number? 10 0 0xffff true text with
  | some (port, []) => some port
  | _ => none

def v4? (text : List Char) : Option SocketAddress := do
  let (octets, rest) ← octets? text
  let port ← port? rest
  some (v4 octets port)

def v6? (text : List Char) : Option SocketAddress := do
  let text ← behind? '[' text
  let (groups, rest) ← host6? text
  let (scope, rest) ← match behind? '%' rest with
    | some rest => number? 10 0 0xffffffff true rest
    | none => some (0, rest)
  let rest ← behind? ']' rest
  let port ← port? rest
  some (v6 groups scope port)

def parse? (text : String) : Option SocketAddress :=
  match v4? text.toList with
  | some address => some address
  | none => v6? text.toList

/-- Reads an address; a port alone stands for that port of the host `host`. -/
def parseWith? (host : String) (text : String) : Option SocketAddress :=
  if text.toList.head? = some ':' then parse? (host ++ text) else parse? text

/-- An address to listen on; a port alone means all interfaces. -/
def parseBind? (text : String) : Option SocketAddress :=
  parseWith? "0.0.0.0" text

/-- An address to connect to; a port alone means this host. -/
def parseConnect? (text : String) : Option SocketAddress :=
  parseWith? "127.0.0.1" text

def syntaxFault : String := "invalid socket address syntax"

/-! ## Writing -/

def writeOctets (octets : List Nat) : String :=
  ".".intercalate (octets.map toString)

def writeGroup (group : Nat) : String :=
  String.ofList (Nat.toDigits 16 group)

def writeGroups (groups : List Nat) : String :=
  ":".intercalate (groups.map writeGroup)

def zeroRun : List Nat → Nat
  | 0 :: rest => zeroRun rest + 1
  | _ => 0

/-- The position and length of the longest run of zeros, the first of several. -/
def longestRun : Nat → List Nat → Nat × Nat
  | _, [] => (0, 0)
  | position, groups@(_ :: rest) =>
    let here := zeroRun groups
    let later := longestRun (position + 1) rest
    if later.2 ≤ here then (position, here) else later

def writeHost6 (groups : List Nat) : String :=
  match groups with
  | [0, 0, 0, 0, 0, 0xffff, high, low] =>
    "::ffff:" ++ writeOctets [high / 256, high % 256, low / 256, low % 256]
  | _ =>
    let (position, length) := longestRun 0 groups
    if 1 < length then
      writeGroups (groups.take position) ++ "::" ++ writeGroups (groups.drop (position + length))
    else writeGroups groups

def text : SocketAddress → String
  | v4 octets port => writeOctets octets ++ ":" ++ toString port
  | v6 groups scope port =>
    let zone := if scope = 0 then "" else "%" ++ toString scope
    "[" ++ writeHost6 groups ++ zone ++ "]:" ++ toString port

def loopback : SocketAddress :=
  v4 [127, 0, 0, 1] 0

end SocketAddress

end PluginBridge
