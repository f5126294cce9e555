/-!
# Doubles as numbers

A finite double is a whole number times a power of two. Decoding its bits gives both, so that
text can be made from it in exact arithmetic.
-/

namespace Cochange.Decimal

/-- The number `± mantissa · 2 ^ exponent`. -/
structure Binary where
  negative : Bool
  mantissa : Nat
  exponent : Int
  deriving DecidableEq, Repr

/-- What a double stands for. -/
inductive Double where
  | finite (b : Binary)
  | infinite (negative : Bool)
  | nan
  deriving DecidableEq, Repr

/-- The weight of the bit in front of the fraction: two to the 52. -/
def hiddenBit : Nat := 4503599627370496

/-- The weight of the bit of the sign: two to the 63. -/
def signBit : Nat := 9223372036854775808

/-- The value of the 64 bits of a double: a sign, eleven bits of exponent and 52 of fraction. -/
def Double.ofBits (bits : Nat) : Double :=
  let negative := decide (signBit ≤ bits)
  let exponent : Nat := bits / hiddenBit % 2048
  let fraction := bits % hiddenBit
  if exponent = 2047 then
    if fraction = 0 then .infinite negative else .nan
  else if exponent = 0 then
    .finite ⟨negative, fraction, -1074⟩
  else
    .finite ⟨negative, hiddenBit + fraction, (exponent : Int) - 1075⟩

/-- What a double stands for. -/
def Double.ofFloat (x : Float) : Double :=
  .ofBits x.toBits.toNat

end Cochange.Decimal
