import PluginBridge.Binary64

/-!
# Half and single precision

A double is written in sixteen or thirty-two bits when widening those gives its very bits back.
Widening is exact; a signalling NaN becomes quiet.
-/
namespace PluginBridge.Binary64

/-- Widens the fields of a narrower format with `fractionBits` fraction bits and the exponent bias
`bias`, whose largest exponent field is `top`. -/
def widen (fractionBits bias top : Nat) (negative : Bool) (exponentField fraction : Nat) :
    Binary64 :=
  let shift := 1 <<< (52 - fractionBits)
  if exponentField = top then
    if fraction = 0 then infinity negative
    else compose negative 2047 ((1 <<< 51) + fraction * shift % (1 <<< 51))
  else if exponentField = 0 then
    if fraction = 0 then zero negative
    else
      let high := Nat.log2 fraction
      compose negative (1023 + 1 - bias + high - fractionBits)
        ((fraction - (1 <<< high)) * (1 <<< (52 - high)))
  else compose negative (exponentField + 1023 - bias) (fraction * shift)

def ofHalf (half : UInt16) : Binary64 :=
  let n := half.toNat
  widen 10 15 31 ((1 <<< 15) ≤ n) (n / (1 <<< 10) % (1 <<< 5)) (n % (1 <<< 10))

def ofSingle (single : UInt32) : Binary64 :=
  let n := single.toNat
  widen 23 127 255 ((1 <<< 31) ≤ n) (n / (1 <<< 23) % (1 <<< 8)) (n % (1 <<< 23))

/-- The fields of the narrower number that may widen to `x`: exponent field and fraction. -/
def narrow (fractionBits bias top : Nat) (x : Binary64) : Nat × Nat :=
  let shift := 1 <<< (52 - fractionBits)
  let field := x.exponentField
  if field = 2047 then (top, x.fraction / shift)
  else if 1023 < field + bias then
    if field + bias - 1023 < top then (field + bias - 1023, x.fraction / shift) else (top, 0)
  else (0, ((1 <<< 52) + x.fraction) / (shift * (1 <<< (1024 - (field + bias)))))

/-- The half precision number with the very value of `x`, if there is one. -/
def toHalf? (x : Binary64) : Option UInt16 :=
  let (field, fraction) := narrow 10 15 31 x
  let sign := if x.isNegative then 1 <<< 15 else 0
  let half := UInt16.ofNat (sign + field * (1 <<< 10) + fraction)
  if ofHalf half = x then some half else none

def toSingle? (x : Binary64) : Option UInt32 :=
  let (field, fraction) := narrow 23 127 255 x
  let sign := if x.isNegative then 1 <<< 31 else 0
  let single := UInt32.ofNat (sign + field * (1 <<< 23) + fraction)
  if ofSingle single = x then some single else none

theorem ofHalf_of_toHalf? {x : Binary64} {half : UInt16} (found : x.toHalf? = some half) :
    ofHalf half = x := by
  simp only [toHalf?, Option.ite_none_right_eq_some, Option.some.injEq] at found
  obtain ⟨exact, rfl⟩ := found
  exact exact

theorem ofSingle_of_toSingle? {x : Binary64} {single : UInt32}
    (found : x.toSingle? = some single) : ofSingle single = x := by
  simp only [toSingle?, Option.ite_none_right_eq_some, Option.some.injEq] at found
  obtain ⟨exact, rfl⟩ := found
  exact exact

end PluginBridge.Binary64
