import Cochange.Decimal.Binary
import Cochange.Decimal.Reading
import Cochange.Instant.Rfc3339
import Cochange.Toml.Basic
import Cochange.Toml.Text

/-!
# TOML numbers, dates and other scalars

Digits may be grouped by underscores, a single one between two digits. Whole numbers are written
in decimal, with a sign if wanted and without leading zeros, or after `0x`, `0o` and `0b` in other
bases; they take 64 bits. A number that is too large for a double is refused, unless it is
negative: it becomes the negative infinity. Dates and times must exist.
-/

namespace Cochange.Toml

open Decimal Instant

/-! ## Numbers -/

/-- Digits behind the first one, without the underscores between them, and what follows them. -/
def moreDigits (isDigit : Char → Bool) : List Char → List Char × List Char
  | '_' :: d :: cs =>
    if isDigit d then
      let r := moreDigits isDigit cs
      (d :: r.1, r.2)
    else ([], '_' :: d :: cs)
  | d :: cs =>
    if isDigit d then
      let r := moreDigits isDigit cs
      (d :: r.1, r.2)
    else ([], d :: cs)
  | [] => ([], [])

/-- The digits in front, of which there is at least one. -/
def digits? (isDigit : Char → Bool) : List Char → Option (List Char × List Char)
  | d :: cs =>
    if isDigit d then
      let r := moreDigits isDigit cs
      some (d :: r.1, r.2)
    else none
  | [] => none

/-- The digits of a whole number without its sign: a zero, or digits that begin with another
one. -/
def wholeDigits? : List Char → Option (List Char × List Char)
  | '0' :: cs => some (['0'], cs)
  | cs => digits? Char.isDigit cs

/-- An exponent behind its letter. -/
def exponent? : List Char → Option (Int × List Char)
  | 'e' :: cs | 'E' :: cs =>
    let s := splitSign cs
    (digits? Char.isDigit s.2).map fun r =>
      (if s.1 then -(value r.1 : Int) else value r.1, r.2)
  | _ => none

/-- What follows the digits of a whole number to make it a decimal one: a fraction, an exponent
or both. -/
def fractionAndExponent? : List Char → Option ((List Char × Int) × List Char)
  | '.' :: cs => do
    let (fraction, cs) ← digits? Char.isDigit cs
    match exponent? cs with
    | some (e, cs) => some ((fraction, e), cs)
    | none => some ((fraction, 0), cs)
  | cs => (exponent? cs).map fun r => (([], r.1), r.2)

/-- A decimal number. -/
def decimal? (cs : List Char) : Option (Float × List Char) := do
  let s := splitSign cs
  let (whole, cs) ← wholeDigits? s.2
  let ((fraction, e), cs) ← fractionAndExponent? cs
  let x := floatOfParts s.1 whole fraction e
  if x == 1 / 0 then none else some (x, cs)

/-- Infinity, or what is no number. -/
def specialFloat? (cs : List Char) : Option (Float × List Char) :=
  let s := splitSign cs
  match s.2 with
  | 'i' :: 'n' :: 'f' :: cs => some (signed s.1 (1 / 0), cs)
  | 'n' :: 'a' :: 'n' :: cs => some (signed s.1 (0 / 0), cs)
  | _ => none

/-- A number if it takes 64 bits with its sign. -/
def word? (n : Int) (rest : List Char) : Option (Int × List Char) :=
  if -(signBit : Int) ≤ n ∧ n < signBit then some (n, rest) else none

/-- The digits of a base that is a power of two. -/
def isDigitOf (base : Nat) (c : Char) : Bool :=
  match Text.hexDigit? c with
  | none => false
  | some d => d < base

/-- A whole number behind the sign of its base. -/
def based? (base : Nat) (cs : List Char) : Option (Int × List Char) := do
  let (ds, cs) ← digits? (isDigitOf base) cs
  word? (ds.foldl (fun n d => base * n + (Text.hexDigit? d).getD 0) 0 : Nat) cs

/-- A whole number. -/
def integer? : List Char → Option (Int × List Char)
  | '0' :: 'x' :: cs => based? 16 cs
  | '0' :: 'o' :: cs => based? 8 cs
  | '0' :: 'b' :: cs => based? 2 cs
  | cs => do
    let s := splitSign cs
    let (ds, cs) ← wholeDigits? s.2
    word? (if s.1 then -(value ds : Int) else value ds) cs

/-! ## Dates -/

/-- Two digits that are at most `limit`. -/
def upTo? (limit : Nat) (cs : List Char) : Option (Nat × List Char) :=
  (twoDigits? cs).filter fun r => r.1 ≤ limit

/-- What follows a character. -/
def after? (c : Char) : List Char → Option (List Char)
  | d :: cs => if d = c then some cs else none
  | [] => none

/-- What follows a date. -/
def afterDate? (cs : List Char) : Option (List Char) := do
  let (century, cs) ← twoDigits? cs
  let (year, cs) ← twoDigits? cs
  let (month, cs) ← upTo? 12 (← after? '-' cs)
  let (day, cs) ← twoDigits? (← after? '-' cs)
  if month = 0 ∨ day = 0 ∨ daysInMonth (100 * century + year : Nat) month < day then none
  else some cs

/-- What follows a time of day. Second 60 is allowed. -/
def afterTime? (cs : List Char) : Option (List Char) := do
  let (_, cs) ← upTo? 23 cs
  let (_, cs) ← upTo? 59 (← after? ':' cs)
  let (_, cs) ← upTo? 60 (← after? ':' cs)
  match cs with
  | '.' :: cs =>
    if (cs.takeWhile Char.isDigit).isEmpty then none else some (cs.dropWhile Char.isDigit)
  | cs => some cs

/-- What follows an offset from UTC. -/
def afterOffset? : List Char → Option (List Char)
  | 'Z' :: cs | 'z' :: cs => some cs
  | '+' :: cs | '-' :: cs => do
    let (_, cs) ← upTo? 23 cs
    let (_, cs) ← upTo? 59 (← after? ':' cs)
    some cs
  | _ => none

/-- What follows a date, a time of day, or a date with a time of day and perhaps an offset. -/
def afterDateOrTime? (cs : List Char) : Option (List Char) :=
  match afterDate? cs with
  | none => afterTime? cs
  | some cs =>
    match (separator? cs).bind afterTime? with
    | none => some cs
    | some cs => some ((afterOffset? cs).getD cs)

/-! ## Scalars -/

/-- A number or a date. -/
def numberOrDate? (cs : List Char) : Option (Toml × List Char) :=
  match afterDateOrTime? cs with
  | some rest => some (date, rest)
  | none =>
    match (decimal? cs).or (specialFloat? cs) with
    | some (x, rest) => some (float x, rest)
    | none => (integer? cs).map fun r => (integer r.1, r.2)

/-- A value that is no array and no table. -/
def scalar? : List Char → Option (Toml × List Char)
  | 't' :: 'r' :: 'u' :: 'e' :: cs => some (bool true, cs)
  | 'f' :: 'a' :: 'l' :: 's' :: 'e' :: cs => some (bool false, cs)
  | cs =>
    match string? cs with
    | some (s, rest) => some (text s, rest)
    | none => numberOrDate? cs

end Cochange.Toml
