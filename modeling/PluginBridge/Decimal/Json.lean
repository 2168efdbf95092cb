import PluginBridge.Binary64
import PluginBridge.Text.Digit

/-!
# Numbers of JSON

The number a JSON numeral stands for. Digits are gathered while they fit in 64 bits; further ones
count as zeros before the point and not at all behind it. The gathered number becomes a double and
is multiplied or divided by a power of ten, each step rounding. A whole numeral stays an integer if
it fits in 64 bits, signed or not; minus zero is a double.
-/
namespace PluginBridge.Decimal

structure Numeral where
  negative : Bool
  whole : List Nat
  fraction : Option (List Nat)
  exponent : Option (Bool × List Nat)
deriving Inhabited

inductive Numeral.Meaning where
  | integer (n : Int)
  | real (number : Binary64)
  | outOfRange

/-- Appends digits to a number while it fits in 64 bits; the number and how many were taken. -/
def gather (n : Nat) : List Nat → Nat × Nat
  | [] => (n, 0)
  | digit :: rest =>
    if (1 <<< 64) ≤ n * 10 + digit then (n, 0)
    else
      let (all, count) := gather (n * 10 + digit) rest
      (all, count + 1)

def powerOfTen (exponent : Nat) : Binary64 :=
  .ofDecimal false 1 exponent

/-- Scales by a power of ten. Powers beyond the largest double are divided by in steps; after
`steps` of them every number that fits in 64 bits is zero. -/
def scaleByTen : Nat → Binary64 → Int → Option Binary64
  | 0, x, _ => some x
  | steps + 1, x, exponent =>
    if exponent.natAbs ≤ 308 then
      if 0 ≤ exponent then
        let product := x.mul (powerOfTen exponent.toNat)
        if product.isFinite then some product else none
      else some (x.div (powerOfTen exponent.natAbs))
    else if x.isZero then some x
    else if 0 ≤ exponent then none
    else scaleByTen steps (x.div (powerOfTen 308)) (exponent + 308)

def real? (negative : Bool) (significand : Nat) (exponent : Int) : Numeral.Meaning :=
  match scaleByTen 4 (.ofNat significand) exponent with
  | some x => .real (if negative then x.negate else x)
  | none => .outOfRange

def Numeral.meaning (numeral : Numeral) : Numeral.Meaning :=
  let (whole, taken) := gather 0 numeral.whole
  let surplus := numeral.whole.length - taken
  let fits := surplus = 0 ∧ numeral.fraction.isNone ∧ numeral.exponent.isNone
  if fits ∧ numeral.negative = false then .integer whole
  else if fits ∧ 0 < whole ∧ whole ≤ (1 <<< 63) then .integer (-whole)
  else
    let (significand, places) := gather whole (numeral.fraction.getD [])
    let start : Int := (surplus : Int) - places
    match numeral.exponent with
    | none => real? numeral.negative significand start
    | some (down, digits) =>
      let exponent := Text.ofDigits 10 digits
      if exponent < (1 <<< 31) then
        let sum := if down then start - exponent else start + exponent
        real? numeral.negative significand (max (-0x80000000) (min 0x7fffffff sum))
      else if significand ≠ 0 ∧ down = false then .outOfRange
      else .real (.zero numeral.negative)

end PluginBridge.Decimal
