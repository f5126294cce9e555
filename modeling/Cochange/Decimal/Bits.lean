import Cochange.Decimal.Binary

/-!
# Doubles as they are stored

The 64 bits of a double are a sign and, below it, a magnitude, which is the larger the farther the
double is from zero. The infinities have the largest magnitude of a number, and what is beyond it is
NaN: stored there are many of them, of both signs.

Doubles are compared in two ways. As numbers -0.0 and 0.0 are the same, and NaN is not compared with
anything. In the total order any two doubles with different bits have their places: negative before
positive, -0.0 before 0.0, and NaN beyond the infinity of its sign, the farther the larger its
magnitude.

The values of `Float` are not all of these. It has a single NaN, which is positive and so comes last
in the total order.
-/

namespace Cochange

namespace Decimal

/-- The bits below the sign, as a number. -/
def magnitude (bits : Nat) : Nat :=
  bits % signBit

/-- The magnitude of the infinities. -/
def infiniteMagnitude : Nat := 2047 * hiddenBit

/-- Where numbers stand, counted from zero. -/
def place (bits : Nat) : Int :=
  if signBit ≤ bits then -(magnitude bits : Int) else magnitude bits

/-- Where a double with these bits stands in the total order. -/
def orderKeyOfBits (bits : Nat) : Int :=
  if signBit ≤ bits then -(bits - signBit : Nat) - 1 else bits

/-- Where a double stands in the total order. -/
def orderKey (x : Float) : Int :=
  orderKeyOfBits x.toBits.toNat

end Decimal

/-- A double as it is stored, by its bits. -/
structure DoubleBits where
  bits : UInt64
  deriving DecidableEq, Repr

namespace DoubleBits

open Decimal (magnitude infiniteMagnitude place orderKeyOfBits)

/-- How a double is stored. -/
def ofFloat (x : Float) : DoubleBits :=
  ⟨x.toBits⟩

instance : OfScientific DoubleBits where
  ofScientific mantissa down exponent := .ofFloat (.ofScientific mantissa down exponent)

/-- The same bits with the other sign. -/
instance : Neg DoubleBits where
  neg x := ⟨x.bits ^^^ 0x8000000000000000⟩

/-- The double that is stored, where all NaN are one. -/
def toFloat (x : DoubleBits) : Float :=
  .ofBits x.bits

/-- Whether a double is no number. -/
def isNaN (x : DoubleBits) : Bool :=
  infiniteMagnitude < magnitude x.bits.toNat

/-- Whether two doubles are numbers and the first is less than the second. -/
def lt (x y : DoubleBits) : Bool :=
  !x.isNaN && !y.isNaN && place x.bits.toNat < place y.bits.toNat

/-- Whether two doubles are numbers and the first is at most the second. -/
def le (x y : DoubleBits) : Bool :=
  !x.isNaN && !y.isNaN && place x.bits.toNat ≤ place y.bits.toNat

/-- Where a double stands in the total order. -/
def orderKey (x : DoubleBits) : Int :=
  orderKeyOfBits x.bits.toNat

end DoubleBits

end Cochange
