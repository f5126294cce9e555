import Cochange.Instant.Basic
import Cochange.Decimal.Digits
import Cochange.Text.Characters

/-!
# Points in time as text

The text of a point in time follows RFC 3339, in UTC with a `Z`: `2024-01-01T05:30:00.250Z`. The
fraction has none, three, six or nine digits, the fewest that hold it. A year outside 0 to 9999
has a sign.

Reading is more liberal. Dates and times of any offset are taken; `T` may be a `t` or a space,
`Z` a `z` or the word `UTC`; numbers may leave out their leading zeros; white space may stand
around separators; digits of the fraction past the ninth are dropped.
-/

namespace Cochange

open Decimal Text

namespace Instant

/-- The year, with four digits or with a sign. -/
def yearText (year : Int) : List Char :=
  if 0 ≤ year ∧ year ≤ 9999 then padded 4 year.toNat
  else
    let ds := digits year.natAbs
    (if year < 0 then '-' else '+') :: (List.replicate (4 - ds.length) '0' ++ ds)

/-- The fraction of a second, with its point. -/
def fractionText (nanosecond : Nat) : List Char :=
  if nanosecond = 0 then []
  else if nanosecond % 1000000 = 0 then '.' :: padded 3 (nanosecond / 1000000)
  else if nanosecond % 1000 = 0 then '.' :: padded 6 (nanosecond / 1000)
  else '.' :: padded 9 nanosecond

/-- The text of a point in time. -/
def text (t : Instant) : String :=
  let leap := 1000000000 ≤ t.time.nanosecond
  let s := t.time.second
  String.ofList <|
    yearText t.date.year ++ '-' :: padded 2 t.date.month ++ '-' :: padded 2 t.date.day ++
      'T' :: padded 2 (s / 3600) ++ ':' :: padded 2 (s / 60 % 60) ++
      ':' :: padded 2 (if leap then 60 else s % 60) ++
      fractionText (if leap then t.time.nanosecond - 1000000000 else t.time.nanosecond) ++ ['Z']

/-! ## Reading -/

/-- The number in front, of at most `width` digits, white space before it skipped. -/
def number? (width : Nat) (cs : List Char) : Option (Nat × List Char) :=
  let cs := trimStart cs
  let ds := (cs.takeWhile Char.isDigit).take width
  if ds.isEmpty then none else some (value ds, cs.drop ds.length)

/-- The year in front. With a sign it may have any number of digits. -/
def year? (cs : List Char) : Option (Int × List Char) :=
  match trimStart cs with
  | '-' :: cs =>
    if (cs.head?.map Char.isDigit) = some true then
      (number? cs.length cs).map fun r => (-(r.1 : Int), r.2)
    else none
  | '+' :: cs =>
    if (cs.head?.map Char.isDigit) = some true then
      (number? cs.length cs).map fun r => ((r.1 : Int), r.2)
    else none
  | cs => (number? 4 cs).map fun r => ((r.1 : Int), r.2)

/-- A separator in front, white space before it skipped. -/
def expect? (sep : Char) (cs : List Char) : Option (List Char) :=
  match trimStart cs with
  | c :: cs => if c = sep then some cs else none
  | [] => none

/-- The fraction of a second in front, in nanoseconds; a point wants at least one digit. -/
def fraction? : List Char → Option (Nat × List Char)
  | '.' :: cs =>
    let run := cs.takeWhile Char.isDigit
    let ds := run.take 9
    if ds.isEmpty then none
    else some (value ds * tenTo (9 - ds.length), cs.drop run.length)
  | cs => some (0, cs)

/-- Two digits in front. -/
def twoDigits? : List Char → Option (Nat × List Char)
  | a :: b :: cs => if a.isDigit && b.isDigit then some (value [a, b], cs) else none
  | _ => none

/-- Hours and minutes of an offset behind its sign, in minutes. Less than a day is allowed. -/
def offsetDigits? (cs : List Char) : Option (Int × List Char) :=
  match twoDigits? cs with
  | none => none
  | some (hours, cs) =>
    match twoDigits? (cs.dropWhile fun c => c = ':' || isSpace c) with
    | none => none
    | some (minutes, cs) =>
      if hours < 24 ∧ minutes < 60 then some (hours * 60 + minutes, cs) else none

/-- The offset in front, in minutes. -/
def offset? (cs : List Char) : Option (Int × List Char) :=
  match trimStart cs with
  | 'Z' :: cs | 'z' :: cs => some (0, cs)
  | '+' :: cs => offsetDigits? cs
  | '-' :: cs | '−' :: cs => (offsetDigits? cs).map fun r => (-r.1, r.2)
  | u :: t :: c :: cs =>
    if [u.toUpper, t.toUpper, c.toUpper] = ['U', 'T', 'C'] then some (0, cs) else none
  | _ => none

/-- The date in front. -/
def date? (cs : List Char) : Option (Date × List Char) := do
  let (year, cs) ← year? cs
  let cs ← expect? '-' cs
  let (month, cs) ← number? 2 cs
  let cs ← expect? '-' cs
  let (day, cs) ← number? 2 cs
  let date ← Date.ofNumbers? year month day
  if minYear ≤ year ∧ year ≤ maxYear then some (date, cs) else none

/-- The time of day in front. -/
def time? (cs : List Char) : Option (TimeOfDay × List Char) := do
  let (hour, cs) ← number? 2 cs
  let cs ← expect? ':' cs
  let (minute, cs) ← number? 2 cs
  let cs ← expect? ':' cs
  let (second, cs) ← number? 2 cs
  let (nanosecond, cs) ← fraction? cs
  let time ← TimeOfDay.ofNumbers? hour minute second nanosecond
  some (time, cs)

/-- What separates the date from the time. -/
def separator? : List Char → Option (List Char)
  | 'T' :: cs | 't' :: cs | ' ' :: cs => some cs
  | _ => none

/-- The point in time a text names. -/
def parse? (s : String) : Option Instant := do
  let (date, cs) ← date? s.toList
  let cs ← separator? cs
  let (time, cs) ← time? cs
  let (minutes, cs) ← offset? cs
  if (trimStart cs).isEmpty then ofLocal? date time minutes else none

end Instant

end Cochange
