import Cochange.Decimal.Layout

/-!
# JSON numbers

A number keeps the digits it was written with; what they stand for is asked for separately,
since the answer depends on what is wanted.

As a double, the first digits (as many as fit into 64 bits) are rounded to a double, which is
then multiplied or divided by a power of ten that is itself rounded. That is exact for short
numbers and may miss the nearest double by one unit for those of 17 digits. A number beyond the
range of doubles stands for none.

A double is written with the shortest digits, always with a point or an exponent, and with an
exponent only below `1e-5` and from `1e16` on.
-/

namespace Cochange.Json

open Decimal

/-- A number as it is written: digits before and behind the point and an exponent. -/
structure Numeral where
  negative : Bool := false
  whole : List Char
  fraction : List Char := []
  exponent : Option Int := none
  deriving DecidableEq, Repr

namespace Numeral

/-- The written form. -/
def text (n : Numeral) : List Char :=
  signText n.negative ++ pointText (n.whole, n.fraction) ++
    match n.exponent with
    | none => []
    | some e => 'e' :: (if 0 ≤ e then '+' else '-') :: digits e.natAbs

/-- The numeral of a natural number. -/
def ofNat (n : Nat) : Numeral :=
  { whole := digits n }

/-- The numeral of a whole number. -/
def ofInt (n : Int) : Numeral :=
  { negative := n < 0, whole := digits n.natAbs }

/-- The numeral of a finite double. -/
def ofBinary (b : Binary) : Numeral :=
  let s := b.shortest
  let ds := digits s.coefficient
  let magnitude : Int := ds.length + s.exponent
  if s.coefficient = 0 then { negative := b.negative, whole := ['0'], fraction := ['0'] }
  else if -5 < magnitude ∧ magnitude ≤ 16 then
    let parts := s.positional
    { negative := b.negative
      whole := parts.1
      fraction := if parts.2.isEmpty then ['0'] else parts.2 }
  else
    { negative := b.negative, whole := ds.take 1, fraction := ds.drop 1,
      exponent := some (magnitude - 1) }

/-! ## What a numeral stands for -/

/-- The largest number of 64 bits. -/
def maxWord : Nat :=
  UInt64.size - 1

/-- The whole number a numeral without point and exponent stands for. -/
def toInt? (n : Numeral) : Option Int :=
  if n.fraction.isEmpty ∧ n.exponent = none then
    let m : Int := value n.whole
    if n.negative then
      if 0 < m ∧ m ≤ Decimal.signBit then some (-m) else none
    else if m ≤ maxWord then some m else none
  else
    none

/-- The natural number a numeral stands for, if it is written as one of at most `limit`. -/
def toNat? (limit : Nat) (n : Numeral) : Option Nat :=
  match n.toInt? with
  | some (.ofNat m) => if m ≤ limit then some m else none
  | _ => none

/-- The digits behind the point appended to those before it, as long as the number fits into 64
bits, and the power of ten that belongs to the result. -/
def appendFraction (significand : Nat) (exponent : Int) : List Char → Nat × Int
  | [] => (significand, exponent)
  | d :: ds =>
    let next := significand * 10 + digitValue d
    if maxWord < next then (significand, exponent)
    else appendFraction next (exponent - 1) ds

/-- As many digits before the point as fit into 64 bits, and the number of those left out. -/
def leadingDigits (significand : Nat) : List Char → Nat × Int
  | [] => (significand, 0)
  | d :: ds =>
    let next := significand * 10 + digitValue d
    if maxWord < next then (significand, (d :: ds).length) else leadingDigits next ds

/-- `10 ^ n` as a double. -/
def power (n : Nat) : Float :=
  Float.ofScientific 1 false n

/-- A double times a power of ten; nothing if that is too large for a double. -/
def timesPower (x : Float) (exponent : Int) : Option Float :=
  if 0 ≤ exponent then
    if exponent ≤ 308 then
      let y := x * power exponent.toNat
      if y.isInf then none else some y
    else if x == 0 then some x else none
  else if -308 ≤ exponent then
    some (x / power (-exponent).toNat)
  else if x == 0 then some x
  else timesPower (x / power 308) (exponent + 308)
termination_by (-exponent).toNat

/-- The double a numeral stands for. -/
def toFloat? (n : Numeral) : Option Float :=
  let (significand, dropped) := leadingDigits 0 n.whole
  let (significand, exponent) := appendFraction significand dropped n.fraction
  let x := timesPower (UInt64.ofNat significand).toFloat (exponent + n.exponent.getD 0)
  x.map fun x => if n.negative then -x else x

end Numeral

end Cochange.Json
