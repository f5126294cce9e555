import Cochange.Json.Printer
import Cochange.Json.Token

/-!
# String literals read back

What is written between quotes is read back, whatever characters it has: each character has one
written form, and scanning that form gives the character and goes on behind it
(`scanLiteral_escape`). So a literal ends at its own closing quote, with any text behind it
(`scanLiteral_written`).
-/

namespace Cochange.Json.Token

open Text (hexValue?)

theorem hexValue?_digits {n : Nat} (h : n < 0x20) :
    hexValue? ['0', '0', hexDigit (n / 16), hexDigit (n % 16)] = some n := by
  have hall : ∀ n < 0x20,
      hexValue? ['0', '0', hexDigit (n / 16), hexDigit (n % 16)] = some n := by decide
  exact hall n h

/-- An escaped code that is no half of a surrogate pair stands for its character, also when
another escaped code follows. -/
theorem scanLiteral_code {a b c d : Char} {n : Nat} (hn : hexValue? [a, b, c, d] = some n)
    (hlow : n < 0xd800) (cs : List Char) :
    scanLiteral ('\\' :: 'u' :: a :: b :: c :: d :: cs) =
      (scanLiteral cs).cons (Char.ofNat n) := by
  have hhigh : ¬(0xd800 ≤ n ∧ n < 0xdc00) := by omega
  have hlate : ¬(0xdc00 ≤ n ∧ n < 0xe000) := by omega
  have hpair : ¬(0xd800 ≤ n ∧ n < 0xe000) := by omega
  rw [scanLiteral.eq_def]
  split
  next h => cases h
  next h => cases h
  next h =>
    cases h
    simp only [hn, if_neg hhigh, if_neg hlate]
  next h =>
    cases h
    simp only [hn, if_neg hpair]
  next hno h =>
    cases h
    exact (hno a b c d cs rfl rfl).elim
  next hno h =>
    cases h
    exact (hno _ _ rfl rfl).elim

/-- An escape of one letter. -/
theorem scanLiteral_letter {e c : Char} (he : escaped? e = some c) (hu : e ≠ 'u')
    (cs : List Char) : scanLiteral ('\\' :: e :: cs) = (scanLiteral cs).cons c := by
  rw [scanLiteral.eq_def]
  split
  next h => cases h
  next h => cases h
  next h =>
    cases h
    exact absurd rfl hu
  next h =>
    cases h
    exact absurd rfl hu
  next h =>
    cases h
    rw [he]
  next hno h =>
    cases h
    exact (hno e cs rfl rfl).elim

/-- A character that stands for itself. -/
theorem scanLiteral_plain {c : Char} (hq : c ≠ '"') (hb : c ≠ '\\') (hc : ¬c.toNat < 0x20)
    (cs : List Char) : scanLiteral (c :: cs) = (scanLiteral cs).cons c := by
  rw [scanLiteral.eq_def]
  split
  next h => cases h
  next h =>
    cases h
    exact absurd rfl hq
  next h =>
    cases h
    exact absurd rfl hb
  next h =>
    cases h
    exact absurd rfl hb
  next h =>
    cases h
    exact absurd rfl hb
  next h =>
    cases h
    exact if_neg fun hor => hor.elim hc hb

/-- A character is written with a letter of its own, as a code, or as itself. -/
theorem escape_cases (c : Char) :
    (∃ e, escape c = ['\\', e] ∧ escaped? e = some c ∧ e ≠ 'u' ∧ 0x20 ≤ e.toNat) ∨
    (escape c = ['\\', 'u', '0', '0', hexDigit (c.toNat / 16), hexDigit (c.toNat % 16)] ∧
      c.toNat < 0x20) ∨
    (escape c = [c] ∧ c ≠ '"' ∧ c ≠ '\\' ∧ ¬c.toNat < 0x20) := by
  unfold escape
  by_cases hq : c = '"'
  · exact Or.inl ⟨'"', if_pos hq, by rw [hq]; rfl, by decide, by decide⟩
  rw [if_neg hq]
  by_cases hb : c = '\\'
  · exact Or.inl ⟨'\\', if_pos hb, by rw [hb]; rfl, by decide, by decide⟩
  rw [if_neg hb]
  split
  next h => exact Or.inl ⟨'b', rfl, h ▸ rfl, by decide, by decide⟩
  split
  next h => exact Or.inl ⟨'t', rfl, h ▸ rfl, by decide, by decide⟩
  split
  next h => exact Or.inl ⟨'n', rfl, h ▸ rfl, by decide, by decide⟩
  split
  next h => exact Or.inl ⟨'f', rfl, h ▸ rfl, by decide, by decide⟩
  split
  next h => exact Or.inl ⟨'r', rfl, h ▸ rfl, by decide, by decide⟩
  split
  next h => exact Or.inr (Or.inl ⟨rfl, h⟩)
  next h => exact Or.inr (Or.inr ⟨rfl, hq, hb, h⟩)

/-- A character is read back from its written form. -/
theorem scanLiteral_escape (c : Char) (cs : List Char) :
    scanLiteral (escape c ++ cs) = (scanLiteral cs).cons c := by
  rcases escape_cases c with ⟨e, hw, he, hu, -⟩ | ⟨hw, hcontrol⟩ | ⟨hw, hq, hb, hplain⟩
  · rw [hw]
    exact scanLiteral_letter he hu cs
  · rw [hw]
    refine (scanLiteral_code (hexValue?_digits hcontrol) (by omega) cs).trans ?_
    rw [Char.ofNat_toNat]
  · rw [hw]
    exact scanLiteral_plain hq hb hplain cs

/-- A text is read back from between its quotes, with any text behind them. -/
theorem scanLiteral_written (s rest : List Char) :
    scanLiteral (s.flatMap escape ++ '"' :: rest) = some (some s, rest) := by
  induction s with
  | nil => rw [List.flatMap_nil, List.nil_append, scanLiteral]
  | cons c cs ih =>
    rw [List.flatMap_cons, List.append_assoc, scanLiteral_escape, ih]
    rfl

end Cochange.Json.Token
