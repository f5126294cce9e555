import Cochange.Instant.Rfc3339
import Mathlib.Data.List.TakeWhile

/-!
# Points in time read back

Reading takes the parts of a written point in time one after the other: each number ends where its
separator stands, and the fraction of a second ends at the `Z`. So a point in time is what its text
is read as (`parse?_text`), as long as its year is written without a sign; a leap second is read
back as the sixtieth second.
-/

namespace Cochange.Instant

open Decimal Text

/-! ## Numbers and separators -/

/-- A digit is no white space. -/
theorem isSpace_of_isDigit {c : Char} (h : c.isDigit = true) : isSpace c = false := by
  simp only [Char.isDigit, Bool.and_eq_true, decide_eq_true_eq] at h
  obtain ⟨h0, h9⟩ := h
  have h0' : 48 ≤ c.toNat := h0
  have h9' : c.toNat ≤ 57 := h9
  simp only [isSpace, Bool.or_eq_false_iff, Bool.and_eq_false_iff, decide_eq_false_iff_not]
  omega

theorem trimStart_of_head {cs : List Char} (h : ∀ c ∈ cs.head?, isSpace c = false) :
    trimStart cs = cs := by
  cases cs with
  | nil => rfl
  | cons c cs => exact List.dropWhile_cons_of_neg (by simp [h c rfl])

/-- A run of digits ends where something else stands. -/
theorem takeWhile_isDigit_append {ds : List Char} (hds : ∀ d ∈ ds, d.isDigit = true) {sep : Char}
    (hsep : sep.isDigit = false) (rest : List Char) :
    (ds ++ sep :: rest).takeWhile Char.isDigit = ds := by
  rw [List.takeWhile_append_of_pos hds, List.takeWhile_cons_of_neg (by simp [hsep]),
    List.append_nil]

theorem padded_ne_nil {width : Nat} (hwidth : 0 < width) (n : Nat) : padded width n ≠ [] := by
  intro h
  have hlen := length_padded width n
  rw [h] at hlen
  exact absurd hlen (Nat.ne_of_lt hwidth)

theorem head?_padded {width : Nat} (hwidth : 0 < width) (n : Nat) (rest : List Char) :
    ∀ c ∈ (padded width n ++ rest).head?, c.isDigit = true := by
  intro c hc
  cases hp : padded width n with
  | nil => exact absurd hp (padded_ne_nil hwidth n)
  | cons d ds =>
    rw [hp] at hc
    cases hc
    exact isDigit_of_mem_padded (hp ▸ List.mem_cons_self)

/-- A number of as many digits as are asked for. -/
theorem number?_padded {width n : Nat} (hwidth : 0 < width) (hn : n < tenTo width) {sep : Char}
    (hsep : sep.isDigit = false) (rest : List Char) :
    number? width (padded width n ++ sep :: rest) = some (n, sep :: rest) := by
  have htrim : trimStart (padded width n ++ sep :: rest) = padded width n ++ sep :: rest :=
    trimStart_of_head fun c hc => isSpace_of_isDigit (head?_padded hwidth n _ c hc)
  have htake : (padded width n).take width = padded width n :=
    List.take_of_length_le (Nat.le_of_eq (length_padded width n))
  unfold number?
  rw [htrim]
  dsimp only
  rw [takeWhile_isDigit_append (fun d hd => isDigit_of_mem_padded hd) hsep, htake,
    value_padded hn, List.drop_left]
  exact if_neg (by simpa using padded_ne_nil hwidth n)

theorem expect?_cons {sep : Char} (hsep : isSpace sep = false) (rest : List Char) :
    expect? sep (sep :: rest) = some rest := by
  unfold expect?
  rw [trimStart_of_head (by simpa using hsep)]
  exact if_pos rfl

/-! ## Dates -/

/-- A year of four digits. -/
theorem year?_yearText {year : Int} (h0 : 0 ≤ year) (h9 : year ≤ 9999) (rest : List Char) :
    year? (yearText year ++ '-' :: rest) = some (year, '-' :: rest) := by
  have hlt : year.toNat < tenTo 4 := by
    show year.toNat < 10000
    omega
  have hhead := head?_padded (by decide : 0 < 4) year.toNat ('-' :: rest)
  have htrim := trimStart_of_head fun c hc => isSpace_of_isDigit (hhead c hc)
  rw [yearText, if_pos ⟨h0, h9⟩, year?, htrim]
  split
  next heq =>
    have hsign := hhead '-' (by rw [heq]; rfl)
    exact absurd hsign (by decide)
  next heq =>
    have hsign := hhead '+' (by rw [heq]; rfl)
    exact absurd hsign (by decide)
  next =>
    rw [number?_padded (by decide) hlt (by decide)]
    exact congrArg (fun y => some (y, '-' :: rest)) (Int.toNat_of_nonneg h0)

/-- The numbers of a day are those of this day only. -/
theorem ofNumbers?_date (d : Date) : Date.ofNumbers? d.year d.month d.day = some d := by
  unfold Date.ofNumbers?
  rw [dif_pos ⟨⟨d.month_pos, d.month_le⟩, d.day_pos, d.day_le⟩]

theorem day_le_31 (d : Date) : d.day ≤ 31 := by
  have hday := d.day_le
  unfold daysInMonth at hday
  split at hday
  · split at hday <;> omega
  · split at hday <;> omega

/-- A written date is read back, and reading goes on at the time. -/
theorem date?_written (d : Date) (h0 : 0 ≤ d.year) (h9 : d.year ≤ 9999) (rest : List Char) :
    date? (yearText d.year ++ '-' :: (padded 2 d.month ++ '-' :: (padded 2 d.day ++ 'T' :: rest))) =
      some (d, 'T' :: rest) := by
  have hmonth : d.month < tenTo 2 := Nat.lt_of_le_of_lt d.month_le (by decide)
  have hday : d.day < tenTo 2 := Nat.lt_of_le_of_lt (day_le_31 d) (by decide)
  have hrange : minYear ≤ d.year ∧ d.year ≤ maxYear := by
    unfold minYear maxYear
    omega
  have hdash : ∀ rest, expect? '-' ('-' :: rest) = some rest := expect?_cons (by decide)
  unfold date?
  simp only [Option.bind_eq_bind, Option.bind_some, year?_yearText h0 h9, hdash,
    number?_padded Nat.two_pos hmonth (by decide : Char.isDigit '-' = false),
    number?_padded Nat.two_pos hday (by decide : Char.isDigit 'T' = false), ofNumbers?_date,
    if_pos hrange]

/-! ## Times of day -/

/-- A fraction of some digits, at most nine. -/
theorem fraction?_padded {width n : Nat} (hpos : 0 < width) (hle : width ≤ 9)
    (hn : n < tenTo width) (rest : List Char) :
    fraction? ('.' :: (padded width n ++ 'Z' :: rest)) =
      some (n * tenTo (9 - width), 'Z' :: rest) := by
  have hlen := length_padded width n
  have htake : (padded width n).take 9 = padded width n :=
    List.take_of_length_le (by omega)
  rw [fraction?, takeWhile_isDigit_append (fun d hd => isDigit_of_mem_padded hd) (by decide), htake,
    value_padded hn, hlen, List.drop_left' hlen]
  exact if_neg (by simpa using padded_ne_nil hpos n)

/-- The fraction has as many digits as it needs, so nothing of it is lost. -/
theorem fraction?_fractionText {nanosecond : Nat} (h : nanosecond < 1000000000)
    (rest : List Char) :
    fraction? (fractionText nanosecond ++ 'Z' :: rest) = some (nanosecond, 'Z' :: rest) := by
  unfold fractionText
  split
  next h0 => rw [h0]; rfl
  next h0 =>
    split
    next hmilli =>
      have hn : nanosecond / 1000000 < tenTo 3 := by
        show _ < 1000
        omega
      have hval : nanosecond / 1000000 * tenTo (9 - 3) = nanosecond := by
        show _ * 1000000 = _
        omega
      rw [List.cons_append, fraction?_padded (by decide) (by decide) hn, hval]
    next =>
      split
      next hmicro =>
        have hn : nanosecond / 1000 < tenTo 6 := by
          show _ < 1000000
          omega
        have hval : nanosecond / 1000 * tenTo (9 - 6) = nanosecond := by
          show _ * 1000 = _
          omega
        rw [List.cons_append, fraction?_padded (by decide) (by decide) hn, hval]
      next =>
        have hval : nanosecond * tenTo (9 - 9) = nanosecond := Nat.mul_one nanosecond
        rw [List.cons_append, fraction?_padded (by decide) (by decide) h, hval]

/-- The number of the second and its fraction, a leap second being the sixtieth. -/
def shownSecond (t : TimeOfDay) : Nat × Nat :=
  if 1000000000 ≤ t.nanosecond then (60, t.nanosecond - 1000000000)
  else (t.second % 60, t.nanosecond)

/-- The second that is shown may be the sixtieth; its fraction stays below one second. -/
theorem shownSecond_lt (t : TimeOfDay) :
    (shownSecond t).1 ≤ 60 ∧ (shownSecond t).2 < 1000000000 := by
  have hn := t.nanosecond_lt
  unfold shownSecond
  split <;> constructor <;> dsimp only <;> omega

theorem timeOfDay_ext {t u : TimeOfDay} (hs : t.second = u.second)
    (hn : t.nanosecond = u.nanosecond) : t = u := by
  obtain ⟨s, n, _, _, _⟩ := t
  obtain ⟨s', n', _, _, _⟩ := u
  cases hs
  cases hn
  rfl

/-- The numbers that are shown of a time of day give that time, leap seconds included. -/
theorem ofNumbers?_time (t : TimeOfDay) :
    TimeOfDay.ofNumbers? (t.second / 3600) (t.second / 60 % 60) (shownSecond t).1
      (shownSecond t).2 = some t := by
  have hsecond := t.second_lt
  have hshown := shownSecond_lt t
  unfold TimeOfDay.ofNumbers?
  rw [dif_pos ⟨by omega, by omega, hshown.1, hshown.2⟩]
  by_cases hleap : 1000000000 ≤ t.nanosecond
  · have hlast := t.leap hleap
    have hshow : shownSecond t = (60, t.nanosecond - 1000000000) := if_pos hleap
    simp only [hshow, dif_pos]
    refine congrArg some (timeOfDay_ext ?_ ?_)
    · show t.second / 3600 * 3600 + t.second / 60 % 60 * 60 + 59 = t.second
      omega
    · show 1000000000 + (t.nanosecond - 1000000000) = t.nanosecond
      omega
  · have hshow : shownSecond t = (t.second % 60, t.nanosecond) := if_neg hleap
    have hne : ¬t.second % 60 = 60 := by omega
    simp only [hshow, dif_neg hne]
    refine congrArg some (timeOfDay_ext ?_ rfl)
    show t.second / 3600 * 3600 + t.second / 60 % 60 * 60 + t.second % 60 = t.second
    omega

/-- The text of a time of day. -/
def timeText (t : TimeOfDay) : List Char :=
  padded 2 (t.second / 3600) ++ ':' :: (padded 2 (t.second / 60 % 60) ++
    ':' :: (padded 2 (shownSecond t).1 ++ fractionText (shownSecond t).2))

/-- A fraction begins with no digit. -/
theorem isDigit_head_fractionText (n : Nat) (rest : List Char) : ∃ c cs,
    fractionText n ++ 'Z' :: rest = c :: cs ∧ c.isDigit = false := by
  unfold fractionText
  split
  · exact ⟨'Z', rest, rfl, by decide⟩
  split
  · exact ⟨'.', _, rfl, by decide⟩
  split
  · exact ⟨'.', _, rfl, by decide⟩
  · exact ⟨'.', _, rfl, by decide⟩

/-- A written time is read back, and reading goes on behind the offset. -/
theorem time?_timeText (t : TimeOfDay) (rest : List Char) :
    time? (timeText t ++ 'Z' :: rest) = some (t, 'Z' :: rest) := by
  have hsecond := t.second_lt
  have hshown := shownSecond_lt t
  have hh : t.second / 3600 < tenTo 2 := by
    show _ < 100
    omega
  have hm : t.second / 60 % 60 < tenTo 2 := by
    show _ < 100
    omega
  have hs : (shownSecond t).1 < tenTo 2 := Nat.lt_of_le_of_lt hshown.1 (by decide)
  have hcolon : ∀ rest, expect? ':' (':' :: rest) = some rest := expect?_cons (by decide)
  obtain ⟨c, cs, hfraction, hc⟩ := isDigit_head_fractionText (shownSecond t).2 rest
  have hlast : number? 2 (padded 2 (shownSecond t).1 ++ (fractionText (shownSecond t).2 ++
      'Z' :: rest)) = some ((shownSecond t).1, fractionText (shownSecond t).2 ++ 'Z' :: rest) := by
    rw [hfraction]
    exact number?_padded Nat.two_pos hs hc cs
  unfold time? timeText
  simp only [List.append_assoc, List.cons_append, Option.bind_eq_bind, Option.bind_some, hcolon,
    number?_padded Nat.two_pos hh (by decide : Char.isDigit ':' = false),
    number?_padded Nat.two_pos hm (by decide : Char.isDigit ':' = false), hlast,
    fraction?_fractionText hshown.2, ofNumbers?_time]

/-! ## The whole text -/

theorem toList_text (t : Instant) : t.text.toList =
    yearText t.date.year ++ '-' :: (padded 2 t.date.month ++ '-' :: (padded 2 t.date.day ++
      'T' :: (timeText t.time ++ ['Z']))) := by
  unfold text timeText shownSecond
  rw [String.toList_ofList]
  by_cases hleap : 1000000000 ≤ t.time.nanosecond
  · simp only [if_pos hleap, List.append_assoc, List.cons_append]
  · simp only [if_neg hleap, List.append_assoc, List.cons_append]

/-- At offset zero the local time is the instant. -/
theorem ofLocal?_zero {t : Instant} (h : minYear ≤ t.date.year ∧ t.date.year ≤ maxYear) :
    ofLocal? t.date t.time 0 = some t := by
  have hsecond := t.time.second_lt
  have hearly : ¬(t.time.second : Int) - 0 * 60 < 0 := by omega
  have hlate : ¬86400 ≤ (t.time.second : Int) - 0 * 60 := by omega
  unfold ofLocal?
  simp only [if_neg hearly, if_neg hlate, if_pos h]
  refine congrArg (fun u => some (⟨t.date, u⟩ : Instant)) (timeOfDay_ext ?_ rfl)
  show (((t.time.second : Int) - 0 * 60) % 86400).toNat = t.time.second
  omega

/-- A point in time with a year of four digits is what its text is read as. -/
theorem parse?_text (t : Instant) (h0 : 0 ≤ t.date.year) (h9 : t.date.year ≤ 9999) :
    parse? t.text = some t := by
  have hrange : minYear ≤ t.date.year ∧ t.date.year ≤ maxYear := by
    unfold minYear maxYear
    omega
  have hoffset : offset? ['Z'] = some (0, []) := rfl
  unfold parse?
  rw [toList_text]
  simp only [Option.bind_eq_bind, Option.bind_some, date?_written t.date h0 h9, separator?,
    time?_timeText, hoffset, ofLocal?_zero hrange]
  rfl

end Cochange.Instant
