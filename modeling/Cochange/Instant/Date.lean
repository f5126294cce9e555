/-!
# Dates

Dates of the Gregorian calendar, carried on to all years before and after its introduction, and
the step from one day to the next.

* `prev_next`, `next_prev`: the two steps undo each other.
-/

namespace Cochange

/-- Every fourth year is a leap year, but of the full centuries only every fourth. -/
def isLeapYear (year : Int) : Bool :=
  year % 4 = 0 && (year % 100 ≠ 0 || year % 400 = 0)

/-- How many days a month has. -/
def daysInMonth (year : Int) (month : Nat) : Nat :=
  if month = 2 then (if isLeapYear year then 29 else 28)
  else if month = 4 ∨ month = 6 ∨ month = 9 ∨ month = 11 then 30
  else 31

/-- Every month has at least 28 days. -/
theorem daysInMonth_pos (year : Int) (month : Nat) : 28 ≤ daysInMonth year month := by
  unfold daysInMonth
  repeat' split
  all_goals omega

theorem daysInMonth_december (year : Int) : daysInMonth year 12 = 31 := rfl

/-- A day of the calendar. -/
structure Date where
  year : Int
  month : Nat
  day : Nat
  month_pos : 1 ≤ month
  month_le : month ≤ 12
  day_pos : 1 ≤ day
  day_le : day ≤ daysInMonth year month
  deriving DecidableEq, Repr

namespace Date

/-- The day with these numbers, if there is one. -/
def ofNumbers? (year : Int) (month day : Nat) : Option Date :=
  if h : (1 ≤ month ∧ month ≤ 12) ∧ 1 ≤ day ∧ day ≤ daysInMonth year month then
    some { year, month, day, month_pos := h.1.1, month_le := h.1.2, day_pos := h.2.1,
           day_le := h.2.2 }
  else none

/-- The day after. -/
def next (d : Date) : Date :=
  if h : d.day < daysInMonth d.year d.month then
    { d with day := d.day + 1, day_pos := by omega, day_le := h }
  else if h : d.month < 12 then
    { year := d.year, month := d.month + 1, day := 1, month_pos := by omega, month_le := h,
      day_pos := by omega, day_le := by have := daysInMonth_pos d.year (d.month + 1); omega }
  else
    { year := d.year + 1, month := 1, day := 1, month_pos := by omega, month_le := by omega,
      day_pos := by omega, day_le := by have := daysInMonth_pos (d.year + 1) 1; omega }

/-- The day before. -/
def prev (d : Date) : Date :=
  if h : 1 < d.day then
    { d with day := d.day - 1, day_pos := by omega, day_le := by have := d.day_le; omega }
  else if h : 1 < d.month then
    { year := d.year, month := d.month - 1, day := daysInMonth d.year (d.month - 1),
      month_pos := by omega, month_le := by have := d.month_le; omega,
      day_pos := by have := daysInMonth_pos d.year (d.month - 1); omega,
      day_le := Nat.le_refl _ }
  else
    { year := d.year - 1, month := 12, day := 31, month_pos := by omega, month_le := by omega,
      day_pos := by omega, day_le := by simp [daysInMonth] }

/-! ## The two steps undo each other -/

/-- A date is told by its year, month and day. -/
theorem ext_numbers {d e : Date} (hy : d.year = e.year) (hm : d.month = e.month)
    (hd : d.day = e.day) : d = e := by
  obtain ⟨y, m, n, _, _, _, _⟩ := d
  obtain ⟨y', m', n', _, _, _, _⟩ := e
  cases hy; cases hm; cases hd
  rfl

/-- The day before the next one is the day itself. -/
theorem prev_next (d : Date) : d.next.prev = d := by
  have h1 := d.month_pos
  have h2 := d.month_le
  have h3 := d.day_pos
  have h4 := d.day_le
  unfold next
  split
  · next h =>
    unfold prev
    rw [dif_pos (by simp only; omega)]
    apply ext_numbers <;> simp
  · next h =>
    split
    · next hm =>
      unfold prev
      rw [dif_neg (by simp), dif_pos (by simp only; omega)]
      apply ext_numbers <;> simp only [Nat.add_sub_cancel]
      omega
    · next hm =>
      have hm : d.month = 12 := by omega
      have hd : daysInMonth d.year d.month = 31 := by rw [hm, daysInMonth_december]
      unfold prev
      rw [dif_neg (by simp), dif_neg (by simp)]
      apply ext_numbers <;> simp only <;> omega

/-- The day after the previous one is the day itself. -/
theorem next_prev (d : Date) : d.prev.next = d := by
  have h1 := d.month_pos
  have h2 := d.month_le
  have h3 := d.day_pos
  have h4 := d.day_le
  unfold prev
  split
  · next h =>
    unfold next
    rw [dif_pos (by simp only; omega)]
    apply ext_numbers <;> simp only
    omega
  · next h =>
    split
    · next hm =>
      unfold next
      rw [dif_neg (by simp), dif_pos (by simp only; omega)]
      apply ext_numbers <;> simp only <;> omega
    · next hm =>
      unfold next
      rw [dif_neg (by simp [daysInMonth_december]), dif_neg (by simp)]
      apply ext_numbers <;> simp only <;> omega

end Date

end Cochange
