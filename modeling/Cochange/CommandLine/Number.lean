import Cochange.Decimal.Reading

/-!
# Numbers on the command line

Whole numbers are written in decimal digits, with a sign if wanted; leading zeros do no harm.
Weights may have a point, with digits on one side of it at least, and an exponent; infinity and
what is no number are words in any letter case. Too large a weight is infinity.
-/

namespace Cochange.CommandLine

open Decimal

/-- The number of a text that is nothing but digits. -/
def digitsOnly? (cs : List Char) : Option Nat :=
  if !cs.isEmpty && cs.all Char.isDigit then some (value cs) else none

/-- A whole number. -/
def int? (s : String) : Option Int :=
  let r := splitSign s.toList
  (digitsOnly? r.2).map fun n => if r.1 then -(n : Int) else n

/-- A natural number of at most `limit`, never with a minus sign. -/
def nat? (limit : Nat) (s : String) : Option Nat :=
  match splitSign s.toList with
  | (true, _) => none
  | (false, cs) => (digitsOnly? cs).filter (· ≤ limit)

/-- A number of revisions. Zero may have a minus sign. -/
def revisions? (limit : Nat) (s : String) : Option Nat :=
  (int? s).bind fun n => if 0 ≤ n ∧ n ≤ limit then some n.toNat else none

/-- The exponent that a text ends with, zero if nothing is left of the text. -/
def exponent? : List Char → Option Int
  | [] => some 0
  | 'e' :: cs | 'E' :: cs =>
    let r := splitSign cs
    (digitsOnly? r.2).map fun n => if r.1 then -(n : Int) else n
  | _ => none

/-- A number with its point and exponent, the sign already read. -/
def decimal? (negative : Bool) (cs : List Char) : Option Float :=
  let whole := cs.takeWhile Char.isDigit
  let (fraction, rest) :=
    match cs.dropWhile Char.isDigit with
    | '.' :: rest => (rest.takeWhile Char.isDigit, rest.dropWhile Char.isDigit)
    | rest => ([], rest)
  if whole.isEmpty && fraction.isEmpty then none
  else (exponent? rest).map (floatOfParts negative whole fraction)

/-- A weight. -/
def weight? (s : String) : Option Float :=
  let r := splitSign s.toList
  match String.ofList (r.2.map Char.toLower) with
  | "inf" | "infinity" => some (signed r.1 (1 / 0))
  | "nan" => some (signed r.1 (0 / 0))
  | _ => decimal? r.1 r.2

end Cochange.CommandLine
