import Cochange.Instant.Date

/-!
# Points in time

A point in time is a day and a time of day in UTC, to the nanosecond. A leap second is kept: it
is the second behind the last one of a minute, with a fraction of a whole second and more.
-/

namespace Cochange

/-- A time of day. -/
structure TimeOfDay where
  /-- Seconds since midnight. -/
  second : Nat
  /-- Nanoseconds since that second began; a second and more in a leap second. -/
  nanosecond : Nat
  second_lt : second < 86400
  nanosecond_lt : nanosecond < 2000000000
  /-- Only the last second of a minute is followed by a leap second. -/
  leap : 1000000000 ≤ nanosecond → second % 60 = 59
  deriving DecidableEq, Repr

/-- A point in time, in UTC. -/
structure Instant where
  date : Date
  time : TimeOfDay
  deriving DecidableEq, Repr

/-- The time of day with these numbers, if there is one; the sixtieth second is a leap second. -/
def TimeOfDay.ofNumbers? (hour minute second nanosecond : Nat) : Option TimeOfDay :=
  if h : hour < 24 ∧ minute < 60 ∧ second ≤ 60 ∧ nanosecond < 1000000000 then
    if hs : second = 60 then
      some { second := hour * 3600 + minute * 60 + 59, nanosecond := 1000000000 + nanosecond,
             second_lt := by omega, nanosecond_lt := by omega, leap := fun _ => by omega }
    else
      some { second := hour * 3600 + minute * 60 + second, nanosecond,
             second_lt := by omega, nanosecond_lt := by omega, leap := fun _ => by omega }
  else none

/-- The least year a date may have. -/
def minYear : Int := -262143

/-- The greatest year a date may have. -/
def maxYear : Int := 262142

namespace Instant

/-- The point in time at which clocks that are `minutes` ahead of UTC show a date and a time. The
date in UTC may be a day off, but not beyond the years that dates may have. -/
def ofLocal? (date : Date) (time : TimeOfDay) (minutes : Int) : Option Instant :=
  let seconds : Int := time.second - minutes * 60
  let utc : TimeOfDay :=
    { second := (seconds % 86400).toNat, nanosecond := time.nanosecond
      second_lt := by omega
      nanosecond_lt := time.nanosecond_lt
      leap := fun h => by have := time.leap h; omega }
  let date :=
    if seconds < 0 then date.prev else if 86400 ≤ seconds then date.next else date
  if minYear ≤ date.year ∧ date.year ≤ maxYear then some ⟨date, utc⟩ else none

end Instant

end Cochange
