import Cochange.Proofs.Text.Bytes
import Cochange.QualifiedId.Parse
import Mathlib.Data.String.Basic

/-!
# The order of texts is that of their bytes

Texts are compared character by character. Compared byte by byte in UTF-8 they stand in the same
order: of two characters the later one has the greater bytes (`utf8EncodeChar_lt`), and none has
the bytes of another one at its beginning. So ids stand in the order of their bytes, too
(`QualifiedId.compare_eq_lt_iff`).
-/

namespace Cochange

namespace Text

/-- Of two numbers the leading digits decide, and the last ones if these are equal. -/
theorem div_lt_or_mod_lt {m n : Nat} (k : Nat) (h : m < n) :
    m / k < n / k ∨ m / k = n / k ∧ m % k < n % k := by
  rcases Nat.lt_or_eq_of_le (Nat.div_le_div_right (c := k) (Nat.le_of_lt h)) with hdiv | hdiv
  · exact Or.inl hdiv
  · refine Or.inr ⟨hdiv, ?_⟩
    have hm := Nat.div_add_mod m k
    have hn := Nat.div_add_mod n k
    rw [hdiv] at hm
    omega

/-- The bytes of a character are the digits of its number to the base 64. The first byte tells how
many there are. -/
theorem utf8EncodeChar_digits (c : Char) :
    c.val.toNat < 128 ∧ String.utf8EncodeChar c = [.ofNat c.val.toNat] ∨
    (128 ≤ c.val.toNat ∧ c.val.toNat < 2048) ∧ String.utf8EncodeChar c =
      [.ofNat (c.val.toNat / 64 + 192), .ofNat (c.val.toNat % 64 + 128)] ∨
    (2048 ≤ c.val.toNat ∧ c.val.toNat < 65536) ∧ String.utf8EncodeChar c =
      [.ofNat (c.val.toNat / 64 / 64 + 224), .ofNat (c.val.toNat / 64 % 64 + 128),
        .ofNat (c.val.toNat % 64 + 128)] ∨
    (65536 ≤ c.val.toNat ∧ c.val.toNat < 1114112) ∧ String.utf8EncodeChar c =
      [.ofNat (c.val.toNat / 64 / 64 / 64 + 240), .ofNat (c.val.toNat / 64 / 64 % 64 + 128),
        .ofNat (c.val.toNat / 64 % 64 + 128), .ofNat (c.val.toNat % 64 + 128)] := by
  have hvalid : c.val.toNat < 1114112 := by
    have hchar := c.valid
    simp only [UInt32.isValidChar, Nat.isValidChar] at hchar
    omega
  unfold String.utf8EncodeChar
  dsimp only
  generalize c.val.toNat = n at *
  by_cases h₁ : n ≤ 127
  · exact Or.inl ⟨by omega, if_pos h₁⟩
  · by_cases h₂ : n ≤ 2047
    · refine Or.inr (Or.inl ⟨by omega, ?_⟩)
      rw [if_neg h₁, if_pos h₂, show n / 64 % 32 = n / 64 by omega]
    · by_cases h₃ : n ≤ 65535
      · refine Or.inr (Or.inr (Or.inl ⟨by omega, ?_⟩))
        rw [if_neg h₁, if_neg h₂, if_pos h₃, show n / 4096 % 16 = n / 64 / 64 by omega]
      · refine Or.inr (Or.inr (Or.inr ⟨by omega, ?_⟩))
        rw [if_neg h₁, if_neg h₂, if_neg h₃, show n / 262144 % 8 = n / 64 / 64 / 64 by omega,
          show n / 4096 % 64 = n / 64 / 64 % 64 by omega]

/-- The bytes of a character stand before those of a later one, whatever follows them. -/
theorem utf8EncodeChar_lt {c d : Char} (h : c < d) (as bs : List UInt8) :
    String.utf8EncodeChar c ++ as < String.utf8EncodeChar d ++ bs := by
  have hlt : c.val.toNat < d.val.toNat := h
  have h₁ := div_lt_or_mod_lt 64 hlt
  have hc := utf8EncodeChar_digits c
  have hd := utf8EncodeChar_digits d
  generalize c.val.toNat = m at *
  generalize d.val.toNat = n at *
  -- characters with different numbers of bytes differ in the first one
  rcases hc with ⟨hm, hc⟩ | ⟨hm, hc⟩ | ⟨hm, hc⟩ | ⟨hm, hc⟩ <;>
    rcases hd with ⟨hn, hd⟩ | ⟨hn, hd⟩ | ⟨hn, hd⟩ | ⟨hn, hd⟩ <;> rw [hc, hd]
  all_goals
    simp only [List.cons_append, List.nil_append, List.cons_lt_cons_iff, UInt8.lt_iff_toNat_lt,
      ← UInt8.toNat_inj, UInt8.toNat_ofNat']
  case inr.inr.inr.inr.inr.inr =>
    rcases h₁ with h₁ | ⟨_, h₁⟩
    · rcases div_lt_or_mod_lt 64 h₁ with h₂ | ⟨_, h₂⟩
      · have h₃ := div_lt_or_mod_lt 64 h₂
        omega
      · omega
    · omega
  all_goals omega

/-- Comparing characters is comparing their bytes. -/
theorem bytes_lt {cs ds : List Char} (h : cs < ds) : bytes cs < bytes ds := by
  induction cs generalizing ds with
  | nil =>
    cases ds with
    | nil => exact absurd h (List.lt_irrefl [])
    | cons d ds =>
      have hne : String.utf8EncodeChar d ≠ [] := by
        intro hnil
        have hsize := String.length_utf8EncodeChar d
        rw [hnil] at hsize
        exact absurd hsize (Nat.ne_of_lt d.utf8Size_pos)
      obtain ⟨b, bs, hb⟩ := List.exists_cons_of_ne_nil hne
      show [] < String.utf8EncodeChar d ++ bytes ds
      rw [hb]
      exact List.nil_lt_cons ..
  | cons c cs ih =>
    cases ds with
    | nil => cases h
    | cons d ds =>
      show String.utf8EncodeChar c ++ bytes cs < String.utf8EncodeChar d ++ bytes ds
      rcases List.cons_lt_cons_iff.mp h with hcd | ⟨rfl, hrest⟩
      · exact utf8EncodeChar_lt hcd _ _
      · exact List.append_left_lt (ih hrest)

/-- Texts stand in the order of their bytes. -/
theorem bytes_lt_iff {cs ds : List Char} : bytes cs < bytes ds ↔ cs < ds := by
  refine ⟨fun h => ?_, bytes_lt⟩
  rcases lt_trichotomy cs ds with hlt | rfl | hgt
  · exact hlt
  · exact absurd h (List.lt_irrefl _)
  · exact absurd h (List.lt_asymm (bytes_lt hgt))

end Text

/-- Ids stand in the order of the bytes of their texts. -/
theorem QualifiedId.compare_eq_lt_iff {x y : QualifiedId} :
    compare x y = .lt ↔ x.text.toUTF8.toList < y.text.toUTF8.toList := by
  rw [Text.toList_toUTF8, Text.toList_toUTF8, Text.bytes_lt_iff, ← String.lt_iff, compare_def]
  exact compareOfLessAndEq_eq_lt

end Cochange
