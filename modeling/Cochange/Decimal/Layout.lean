import Cochange.Decimal.Shortest

/-!
# Doubles as text

Three ways of writing a double: with the shortest digits in positional notation throughout, and
rounded to a fixed number of places. (The third, the numbers of JSON, stands with JSON.)
-/

namespace Cochange.Decimal

/-- The digits before and behind the point of a decimal. -/
def Scientific.positional (s : Scientific) : List Char × List Char :=
  let ds := digits s.coefficient
  if 0 ≤ s.exponent then
    (if s.coefficient = 0 then ds else ds ++ List.replicate s.exponent.toNat '0', [])
  else
    let places := (-s.exponent).toNat
    let ds := List.replicate (places + 1 - ds.length) '0' ++ ds
    (ds.take (ds.length - places), ds.drop (ds.length - places))

/-- A minus sign, if there is one. -/
def signText (negative : Bool) : List Char :=
  if negative then ['-'] else []

/-- Digits before and behind a point; no point without digits behind it. -/
def pointText (parts : List Char × List Char) : List Char :=
  if parts.2.isEmpty then parts.1 else parts.1 ++ '.' :: parts.2

/-- A quotient of natural numbers rounded to the nearest one, ties to the even one. -/
def roundQuotient (num den : Nat) : Nat :=
  let q := num / den
  let twice := 2 * (num % den)
  if twice < den then q
  else if den < twice then q + 1
  else if q % 2 = 0 then q else q + 1

/-- The words for what is no finite number. -/
def nonFiniteText : Double → List Char
  | .infinite true => ['-', 'i', 'n', 'f']
  | .infinite false => ['i', 'n', 'f']
  | _ => ['N', 'a', 'N']

/-- A double with its shortest digits and never an exponent: `1`, `-0.5`, `1000000`. -/
def plainText (x : Float) : String :=
  String.ofList <| match Double.ofFloat x with
    | .finite b => signText b.negative ++ pointText b.shortest.positional
    | other => nonFiniteText other

/-- A finite double rounded to `places` digits behind the point. -/
def Binary.fixed (b : Binary) (places : Nat) : Scientific :=
  let num := (b.mantissa <<< b.exponent.toNat) * tenTo places
  let den := 1 <<< (-b.exponent).toNat
  ⟨roundQuotient num den, -(places : Int)⟩

/-- A double with `places` digits behind the point, rounded in its exact value. -/
def fixedText (places : Nat) (x : Float) : String :=
  String.ofList <| match Double.ofFloat x with
    | .finite b => signText b.negative ++ pointText (b.fixed places).positional
    | other => nonFiniteText other

end Cochange.Decimal
