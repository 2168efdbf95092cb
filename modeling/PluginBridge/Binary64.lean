/-!
# Double precision numbers

A number is its 64 bits: sign, eleven exponent bits and 52 fraction bits. Keeping the bits makes
equality of numbers decidable and lets every encoding carry them unchanged. Arithmetic is exact on
natural numbers and rounds once, to the nearest double, a tie going to the even significand.
-/
namespace PluginBridge

structure Binary64 where
  bits : UInt64
deriving DecidableEq, Inhabited

namespace Binary64

def isNegative (x : Binary64) : Bool :=
  (1 <<< 63) ≤ x.bits.toNat

def exponentField (x : Binary64) : Nat :=
  x.bits.toNat / (1 <<< 52) % (1 <<< 11)

def fraction (x : Binary64) : Nat :=
  x.bits.toNat % (1 <<< 52)

def isNaN (x : Binary64) : Bool :=
  x.exponentField == 2047 && x.fraction != 0

def isFinite (x : Binary64) : Bool :=
  x.exponentField != 2047

def isZero (x : Binary64) : Bool :=
  x.exponentField == 0 && x.fraction == 0

def significand (x : Binary64) : Nat :=
  if x.exponentField = 0 then x.fraction else (1 <<< 52) + x.fraction

/-- The power of two that the significand is multiplied by. -/
def scale (x : Binary64) : Int :=
  if x.exponentField = 0 then -1074 else (x.exponentField : Int) - 1075

/-- Equality of numbers: a NaN equals nothing and the two zeros are equal. -/
def same (x y : Binary64) : Bool :=
  !x.isNaN && !y.isNaN && (x.bits == y.bits || (x.isZero && y.isZero))

def compose (negative : Bool) (exponentField fraction : Nat) : Binary64 :=
  ⟨UInt64.ofNat ((if negative then (1 <<< 63) else 0) + exponentField * (1 <<< 52) + fraction)⟩

def infinity (negative : Bool) : Binary64 :=
  compose negative 2047 0

def zero (negative : Bool) : Binary64 :=
  compose negative 0 0

/-- The NaN that stands for every NaN where only being one matters. -/
def quietNaN : Binary64 :=
  compose false 2047 (1 <<< 51)

def negate (x : Binary64) : Binary64 :=
  compose (!x.isNegative) x.exponentField x.fraction

/-- The quotient rounded to the nearest natural number, a tie to the even one. -/
def roundQuotient (numerator denominator : Nat) : Nat :=
  let quotient := numerator / denominator
  let remainder := numerator % denominator
  if 2 * remainder > denominator ∨ (2 * remainder = denominator ∧ quotient % 2 = 1) then
    quotient + 1
  else
    quotient

def floorLog2Ratio (numerator denominator : Nat) : Int :=
  let guess : Int := (Nat.log2 numerator : Int) - Nat.log2 denominator
  let reaches := if 0 ≤ guess then denominator * (1 <<< guess.toNat) ≤ numerator
    else denominator ≤ numerator * (1 <<< (-guess).toNat)
  if reaches then guess else guess - 1

/-- The double nearest to a ratio, infinite where the ratio is beyond the largest double. -/
def ofRatio (negative : Bool) (numerator denominator : Nat) : Binary64 :=
  if numerator = 0 then zero negative
  else
    let scale := max (floorLog2Ratio numerator denominator - 52) (-1074)
    let significand :=
      if 0 ≤ scale then roundQuotient numerator (denominator * (1 <<< scale.toNat))
      else roundQuotient (numerator * (1 <<< (-scale).toNat)) denominator
    let magnitude := (scale + 1074).toNat * (1 <<< 52) + significand
    if 2047 * (1 <<< 52) ≤ magnitude then infinity negative else compose negative 0 magnitude

def ofNat (n : Nat) : Binary64 :=
  ofRatio false n 1

def ofInt (i : Int) : Binary64 :=
  ofRatio (decide (i < 0)) i.natAbs 1

/-- The double nearest to `digits · 10 ^ exponent`. Beyond the four hundredth decimal place either
way the answer is known without the power. -/
def ofDecimal (negative : Bool) (digits : Nat) (exponent : Int) : Binary64 :=
  if digits = 0 then zero negative
  else
    let places : Int := (Nat.toDigits 10 digits).length + exponent
    if 400 < places then infinity negative
    else if places < -400 then zero negative
    else if 0 ≤ exponent then ofRatio negative (digits * Nat.pow 10 exponent.toNat) 1
    else ofRatio negative digits (Nat.pow 10 (-exponent).toNat)

def powerOfTwoRatio (k : Int) : Nat × Nat :=
  if 0 ≤ k then (1 <<< k.toNat, 1) else (1, 1 <<< (-k).toNat)

def mul (x y : Binary64) : Binary64 :=
  let (up, down) := powerOfTwoRatio (x.scale + y.scale)
  ofRatio (x.isNegative != y.isNegative) (x.significand * y.significand * up) down

def div (x y : Binary64) : Binary64 :=
  let (up, down) := powerOfTwoRatio (x.scale - y.scale)
  ofRatio (x.isNegative != y.isNegative) (x.significand * up) (y.significand * down)

end Binary64

end PluginBridge
