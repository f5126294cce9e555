import Cochange.Decimal.Bits

/-!
# Weights

Couplings, degrees and densities are weights. The algorithms on graphs use few operations on
them, gathered here, so that they can be run on doubles and reasoned about in exact arithmetic.

With doubles it matters where a sum begins: one that is gone through in a single sweep begins
with -0.0, so that the sum of nothing is -0.0, while running totals begin with 0.0.

Doubles are weights twice. The program computes with `Float`, where NaN is one value. Where its sign
and its bits matter, as in the total order, there are the doubles as they are stored, `DoubleBits`:
they are compared by all their bits, and computed with through `Float`.
-/

namespace Cochange

/-- The arithmetic of weights. -/
class Weight (ω : Type) where
  /-- What a running total begins with. -/
  zero : ω
  /-- What the sum of a list begins with. -/
  emptySum : ω
  /-- The quotient of two natural numbers. -/
  ratio : Nat → Nat → ω
  add : ω → ω → ω
  sub : ω → ω → ω
  mul : ω → ω → ω
  twice : ω → ω
  divNat : ω → Nat → ω
  lt : ω → ω → Bool
  le : ω → ω → Bool
  /-- The total order by which weights are sorted. -/
  order : ω → ω → Ordering

namespace Weight

variable {ω : Type} [Weight ω]

/-- The weight of a full coupling. -/
def one : ω :=
  ratio 1 1

/-- Whether a weight is zero or more. What is no number is not. -/
def isNonnegative (x : ω) : Bool :=
  le zero x

/-- The sum of a list, from the left. -/
def sum (ws : List ω) : ω :=
  ws.foldl add emptySum

end Weight

instance : Weight Float where
  zero := 0.0
  emptySum := -0.0
  ratio m n := m.toFloat / n.toFloat
  add := (· + ·)
  sub := (· - ·)
  mul := (· * ·)
  twice x := 2.0 * x
  divNat x n := x / n.toFloat
  lt x y := x < y
  le x y := x ≤ y
  order x y := compare (Decimal.orderKey x) (Decimal.orderKey y)

instance : Weight DoubleBits where
  zero := 0.0
  emptySum := -0.0
  ratio m n := .ofFloat (m.toFloat / n.toFloat)
  add x y := .ofFloat (x.toFloat + y.toFloat)
  sub x y := .ofFloat (x.toFloat - y.toFloat)
  mul x y := .ofFloat (x.toFloat * y.toFloat)
  twice x := .ofFloat (2.0 * x.toFloat)
  divNat x n := .ofFloat (x.toFloat / n.toFloat)
  lt := DoubleBits.lt
  le := DoubleBits.le
  order x y := compare x.orderKey y.orderKey

instance : Weight Rat where
  zero := 0
  emptySum := 0
  ratio m n := (m : Rat) / n
  add := (· + ·)
  sub := (· - ·)
  mul := (· * ·)
  twice x := 2 * x
  divNat x n := x / n
  lt x y := x < y
  le x y := x ≤ y
  order x y := if x < y then .lt else if x = y then .eq else .gt

end Cochange
