import Cochange.Decimal.Digits

/-!
# Decimals as doubles

The double nearest to a decimal number, whatever its size: too large a number becomes infinity,
too small a one zero.
-/

namespace Cochange.Decimal

/-- The double nearest to `coefficient · 10 ^ exponent`. Beyond the range of doubles the power
itself is not computed. -/
def nearestFloat (coefficient : Nat) (exponent : Int) : Float :=
  let top : Int := (digits coefficient).length + exponent
  if coefficient = 0 then 0
  else if top < -400 then 0
  else if 400 < top then 1 / 0
  else if 0 ≤ exponent then Float.ofScientific (coefficient * tenTo exponent.toNat) false 0
  else Float.ofScientific coefficient true (-exponent).toNat

/-- Whether there is a minus sign in front, and what follows the sign. -/
def splitSign : List Char → Bool × List Char
  | '-' :: cs => (true, cs)
  | '+' :: cs => (false, cs)
  | cs => (false, cs)

/-- The double with the sign put in front. -/
def signed (negative : Bool) (x : Float) : Float :=
  if negative then -x else x

/-- The double nearest to the number with these digits before and behind the point and this
exponent. -/
def floatOfParts (negative : Bool) (whole fraction : List Char) (exponent : Int) : Float :=
  signed negative (nearestFloat (value (whole ++ fraction)) (exponent - fraction.length))

end Cochange.Decimal
