/-!
# Decimal digits

Natural numbers as runs of decimal digits: `digits` writes a number with as few as it needs,
`padded` with a given count, and `value` reads a run.

* `value_digits`, `value_padded`: what is written is read back.
-/

namespace Cochange.Decimal

/-- The character of a digit below ten. -/
def digit (n : Nat) : Char :=
  Char.ofNat ('0'.toNat + n)

/-- The number a digit stands for. -/
def digitValue (c : Char) : Nat :=
  c.toNat - '0'.toNat

/-- The number a run of digits stands for. -/
def value (ds : List Char) : Nat :=
  ds.foldl (fun n d => 10 * n + digitValue d) 0

/-- The digits of a number, without leading zeros. -/
def digits (n : Nat) : List Char :=
  if n < 10 then [digit n] else digits (n / 10) ++ [digit (n % 10)]
termination_by n
decreasing_by omega

/-- Ten to a power. -/
def tenTo (n : Nat) : Nat :=
  Nat.pow 10 n

/-- The last `width` digits of a number, zeros in front where it has fewer. -/
def padded : Nat → Nat → List Char
  | 0, _ => []
  | width + 1, n => padded width (n / 10) ++ [digit (n % 10)]

theorem tenTo_zero : tenTo 0 = 1 := rfl

theorem tenTo_succ (n : Nat) : tenTo (n + 1) = tenTo n * 10 := rfl

theorem digitValue_digit {n : Nat} (h : n < 10) : digitValue (digit n) = n := by
  have : ∀ k, k < 10 → digitValue (digit k) = k := by decide
  exact this n h

theorem isDigit_digit {n : Nat} (h : n < 10) : (digit n).isDigit = true := by
  have : ∀ k, k < 10 → (digit k).isDigit = true := by decide
  exact this n h

/-- A further digit counts one, and those in front of it ten times what they did. -/
theorem value_append_digit (ds : List Char) (d : Char) :
    value (ds ++ [d]) = 10 * value ds + digitValue d := by
  simp [value, List.foldl_append]

/-- The digits of a number stand for it. -/
theorem value_digits (n : Nat) : value (digits n) = n := by
  rw [digits]
  split
  · next h => simp [value, digitValue_digit h]
  · rw [value_append_digit, value_digits (n / 10), digitValue_digit (by omega)]
    omega
termination_by n
decreasing_by omega

theorem isDigit_of_mem_digits {n : Nat} {c : Char} (h : c ∈ digits n) : c.isDigit = true := by
  rw [digits] at h
  split at h
  · next hn => rw [List.mem_singleton] at h; exact h ▸ isDigit_digit hn
  · rcases List.mem_append.1 h with h | h
    · exact isDigit_of_mem_digits h
    · rw [List.mem_singleton] at h; exact h ▸ isDigit_digit (by omega)
termination_by n
decreasing_by omega

/-- Padding gives exactly the width asked for. -/
theorem length_padded (width n : Nat) : (padded width n).length = width := by
  induction width generalizing n with
  | zero => rfl
  | succ w ih => simp [padded, ih]

/-- A number that fits into the width is what its padded digits stand for. -/
theorem value_padded {width n : Nat} (h : n < tenTo width) : value (padded width n) = n := by
  induction width generalizing n with
  | zero => rw [tenTo_zero] at h; simp [padded, value]; omega
  | succ w ih =>
    rw [padded, value_append_digit, digitValue_digit (by omega), ih (by rw [tenTo_succ] at h; omega)]
    omega

theorem isDigit_of_mem_padded {width n : Nat} {c : Char} (h : c ∈ padded width n) :
    c.isDigit = true := by
  induction width generalizing n with
  | zero => simp [padded] at h
  | succ w ih =>
    rcases List.mem_append.1 h with h | h
    · exact ih h
    · rw [List.mem_singleton] at h; exact h ▸ isDigit_digit (by omega)

end Cochange.Decimal
