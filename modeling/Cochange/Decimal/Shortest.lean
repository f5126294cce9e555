import Cochange.Decimal.Binary
import Cochange.Decimal.Digits

/-!
# The shortest decimal of a double

Every real number nearer to a double than to its neighbours is rounded to that double, and so
are the two halfway points when the mantissa is even. The decimal written for the double is, of
the numbers of this interval with the fewest digits, the one nearest to it.

The search goes over the grids of decimals with 1, 2, … 17 digits. On each grid only the two
neighbours of the double can be the nearest, so only they are tried. All of it is arithmetic on
natural numbers: the double, the ends of the interval and the step of the grid are fractions
with one common denominator.
-/

namespace Cochange.Decimal

/-- The decimal number `coefficient · 10 ^ exponent`. -/
structure Scientific where
  coefficient : Nat
  exponent : Int
  deriving DecidableEq, Repr

/-- A positive double and the ends of the interval that is rounded to it, as numerators over one
denominator. -/
structure Rounding where
  low : Nat
  value : Nat
  high : Nat
  denominator : Nat
  /-- Whether the ends belong to the interval. -/
  closed : Bool

/-- The interval of a positive double. The lower neighbour of a power of two is half as far away
as the upper one, but for the least exponent. -/
def Binary.rounding (b : Binary) : Rounding :=
  let up := 1 <<< b.exponent.toNat
  let m := b.mantissa
  let below := if m = hiddenBit ∧ -1074 < b.exponent then 1 else 2
  { low := (4 * m - below) * up
    value := 4 * m * up
    high := (4 * m + 2) * up
    denominator := 4 <<< (-b.exponent).toNat
    closed := m % 2 = 0 }

namespace Rounding

/-- The same fractions in units of `10 ^ e`. -/
def scale (r : Rounding) (e : Int) : Rounding :=
  let up := tenTo (-e).toNat
  { r with
    low := r.low * up
    value := r.value * up
    high := r.high * up
    denominator := r.denominator * tenTo e.toNat }

/-- Whether a whole number lies in the interval. -/
def contains (r : Rounding) (n : Nat) : Bool :=
  let n := n * r.denominator
  if r.closed then r.low ≤ n && n ≤ r.high else r.low < n && n < r.high

/-- The whole number of the interval that is nearest to the double, if there is one. Of two that
are equally near the even one is taken. -/
def nearest? (r : Rounding) : Option Nat :=
  let below := r.value / r.denominator
  let above := below + 1
  match r.contains below, r.contains above with
  | false, false => none
  | true, false => some below
  | false, true => some above
  | true, true =>
    let toBelow := r.value - below * r.denominator
    let toAbove := above * r.denominator - r.value
    if toBelow < toAbove then some below
    else if toAbove < toBelow then some above
    else if below % 2 = 0 then some below else some above

/-- How many of the next `fuel` multiplications by ten keep the fraction below one. -/
def leadingZeros (num den : Nat) : Nat → Nat
  | 0 => 0
  | fuel + 1 => if num * 10 < den then leadingZeros (num * 10) den fuel + 1 else 0

/-- The exponent of the first digit, plus one: `10 ^ (magnitude - 1) ≤ value < 10 ^ magnitude`. -/
def magnitude (r : Rounding) : Int :=
  if r.denominator ≤ r.value then ((digits (r.value / r.denominator)).length : Int)
  else -(leadingZeros r.value r.denominator 400 : Int)

/-- The first hit on the grids with `count`, `count + 1`, … digits. -/
def search (r : Rounding) : Nat → Nat → Scientific
  | 0, _ => ⟨0, 0⟩
  | fuel + 1, count =>
    let e := r.magnitude - count
    match (r.scale e).nearest? with
    | some n => ⟨n, e⟩
    | none => r.search fuel (count + 1)

end Rounding

/-- A decimal without trailing zeros. -/
def Scientific.trimmed (s : Scientific) : Nat → Scientific
  | 0 => s
  | fuel + 1 =>
    if s.coefficient ≠ 0 ∧ s.coefficient % 10 = 0 then
      Scientific.trimmed ⟨s.coefficient / 10, s.exponent + 1⟩ fuel
    else s

/-- The shortest decimal that is read as this double, the sign left out. -/
def Binary.shortest (b : Binary) : Scientific :=
  if b.mantissa = 0 then ⟨0, 0⟩ else (b.rounding.search 17 1).trimmed 20

end Cochange.Decimal
