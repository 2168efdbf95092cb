import PluginBridge.Binary64

/-!
# The shortest decimal of a double

The fewest significant digits that read back as the same double, and of those the digits nearest to
it. The doubles' neighbours bound an interval of reals that round to the number, its ends included
exactly when the significand is even. On a decimal grid only the two neighbours of the number can
be the nearest point, so a grid is tried by testing those two.
-/
namespace PluginBridge.Decimal

/-- A decimal number `digits · 10 ^ exponent`. -/
structure Scientific where
  digits : Nat
  exponent : Int
deriving DecidableEq, Inhabited

/-- The reals that round to a double, all over the denominator `denominator`. -/
structure Interval where
  low : Nat
  value : Nat
  high : Nat
  denominator : Nat
  closed : Bool

/-- The interval of a finite double that is not zero. Below a power of two the grid of doubles is
twice as fine. -/
def Interval.of (x : Binary64) : Interval :=
  let significand := 4 * x.significand
  let below := if x.fraction = 0 ∧ 1 < x.exponentField then 1 else 2
  let (up, down) := Binary64.powerOfTwoRatio (x.scale - 2)
  { low := (significand - below) * up
    value := significand * up
    high := (significand + 2) * up
    denominator := down
    closed := x.significand % 2 = 0 }

def Interval.contains (interval : Interval) (numerator denominator : Nat) : Bool :=
  let point := numerator * interval.denominator
  if interval.closed then
    interval.low * denominator ≤ point ∧ point ≤ interval.high * denominator
  else
    interval.low * denominator < point ∧ point < interval.high * denominator

/-- The number of decimal digits of a natural number, zero having none. -/
def digitCount (n : Nat) : Nat :=
  if n = 0 then 0 else (Nat.toDigits 10 n).length

def floorLog10Ratio (numerator denominator : Nat) : Int :=
  if denominator ≤ numerator then (digitCount (numerator / denominator) : Int) - 1
  else -(digitCount ((denominator - 1) / numerator) : Int)

/-- The point of the grid `10 ^ exponent` inside the interval that is nearest to the value, if any;
of two equally near the even one. -/
def Interval.nearest? (interval : Interval) (exponent : Int) : Option Scientific :=
  let up := Nat.pow 10 exponent.toNat
  let down := Nat.pow 10 (-exponent).toNat
  let step := interval.denominator * up
  let digits := interval.value * down / step
  let offset := 2 * (interval.value * down % step)
  let inside (d : Nat) : Bool := interval.contains (d * up) down
  let upper := step < offset ∨ (offset = step ∧ digits % 2 = 1)
  match inside digits, inside (digits + 1) with
  | true, true => some ⟨if upper then digits + 1 else digits, exponent⟩
  | true, false => some ⟨digits, exponent⟩
  | false, true => some ⟨digits + 1, exponent⟩
  | false, false => none

/-- Tries grids of more and more digits; `fuel` counts those still to try. -/
def Interval.search (interval : Interval) (magnitude : Int) : Nat → Nat → Scientific
  | 0, _ => ⟨0, 0⟩
  | fuel + 1, count =>
    match interval.nearest? (magnitude - count + 1) with
    | some found => found
    | none => interval.search magnitude fuel (count + 1)

/-- Drops trailing zeros of the digits; `fuel` bounds their number. -/
def Scientific.trim : Nat → Scientific → Scientific
  | 0, s => s
  | fuel + 1, s =>
    if s.digits % 10 = 0 ∧ s.digits ≠ 0 then trim fuel ⟨s.digits / 10, s.exponent + 1⟩ else s

/-- The shortest decimal of a finite double that is not zero. Seventeen digits always suffice. -/
def shortest (x : Binary64) : Scientific :=
  let interval := Interval.of x
  let magnitude := floorLog10Ratio interval.value interval.denominator
  (interval.search magnitude 18 1).trim 18

end PluginBridge.Decimal
