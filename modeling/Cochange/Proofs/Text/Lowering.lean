import Cochange.Text.Lowercase

/-!
# Lower case and the letters of ASCII

Which of its ASCII letters are capitals makes no difference to the lower-case form of a text
(`lowercase_congr`). This takes more than that each letter has one small form: a sigma is lowered by
what stands around it, but small letters and capitals are cased alike.

Points are neither lost nor made by lowering (`point_mem_lowerAfter_iff`).
-/

namespace Cochange.Text

/-! ## Characters -/

/-- What a character has in common with the small letter, if it is a capital of ASCII. -/
structure LoweredAlike (c : Char) : Prop where
  isCased : inRanges casedRanges c.toLower = inRanges casedRanges c
  isCaseIgnorable : inRanges caseIgnorableRanges c.toLower = inRanges caseIgnorableRanges c
  lowerChar : lowerChar c.toLower = lowerChar c
  isSigma : c.toLower = 'Σ' ↔ c = 'Σ'
  isPoint : c.toLower = '.' ↔ c = '.'

theorem loweredAlike_capital : ∀ n < 26, LoweredAlike (Char.ofNat ('A'.toNat + n)) := by
  have h : ∀ n < 26,
      let c := Char.ofNat ('A'.toNat + n)
      inRanges casedRanges c.toLower = inRanges casedRanges c ∧
        inRanges caseIgnorableRanges c.toLower = inRanges caseIgnorableRanges c ∧
        lowerChar c.toLower = lowerChar c ∧ (c.toLower = 'Σ' ↔ c = 'Σ') ∧
        (c.toLower = '.' ↔ c = '.') := by
    decide +kernel
  intro n hn
  obtain ⟨hcased, hignorable, hlower, hsigma, hpoint⟩ := h n hn
  exact ⟨hcased, hignorable, hlower, hsigma, hpoint⟩

/-- Lowering the letters of ASCII first changes nothing of what full lowering gives. -/
theorem loweredAlike (c : Char) : LoweredAlike c := by
  by_cases hc : c.val ≥ 'A'.val ∧ c.val ≤ 'Z'.val
  · have hfirst : 'A'.toNat ≤ c.toNat := UInt32.le_iff_toNat_le.mp hc.1
    have hlast : c.toNat ≤ 'A'.toNat + 25 := UInt32.le_iff_toNat_le.mp hc.2
    have h := loweredAlike_capital (c.toNat - 'A'.toNat) (by omega)
    rwa [Nat.add_sub_cancel' hfirst, Char.ofNat_toNat] at h
  · have hself : c.toLower = c := dif_neg hc
    constructor <;> rw [hself]

/-- No capital is lowered to a point. -/
theorem point_ne_of_lower? {r : CapitalRun} (hr : r ∈ capitalRuns) {c d : Char}
    (h : r.lower? c = some d) : d ≠ '.' := by
  have hfirst : ∀ r ∈ capitalRuns, 0x2e < (r.first : Int) + r.offset := by decide +kernel
  obtain ⟨hin, hd⟩ := Option.ite_none_right_eq_some.mp h
  simp only [Bool.and_eq_true, decide_eq_true_eq] at hin
  have hlarge : 0x2e < (c.toNat + r.offset).toNat := by
    have hrun := hfirst r hr
    omega
  rintro rfl
  rw [Option.some.injEq] at hd
  by_cases hvalid : (c.toNat + r.offset).toNat.isValidChar
  · have hchar : Char.ofNatAux _ hvalid = '.' := (dif_pos hvalid).symm.trans hd
    exact absurd (congrArg Char.toNat hchar) (Nat.ne_of_gt hlarge)
  · have hchar : Char.ofNat 0 = '.' := (dif_neg hvalid).symm.trans hd
    exact absurd hchar (by decide)

/-- Lowering makes no point of another character. -/
theorem point_mem_lowerChar_iff {c : Char} : '.' ∈ lowerChar c ↔ c = '.' := by
  unfold lowerChar
  split
  next =>
    rw [List.mem_singleton, eq_comm]
    exact (loweredAlike c).isPoint
  next hascii =>
    have hc : c ≠ '.' := by
      rintro rfl
      exact hascii (by decide)
    split
    next => exact iff_of_false (by decide) hc
    next =>
      refine iff_of_false ?_ hc
      rw [List.mem_singleton]
      cases hd : capitalRuns.findSome? (·.lower? c) with
      | none => exact hc.symm
      | some d =>
        obtain ⟨r, hr, hlower⟩ := List.exists_of_findSome?_eq_some hd
        exact (point_ne_of_lower? hr hlower).symm

/-! ## Texts -/

theorem startsCased_map_toLower (cs : List Char) :
    startsCased (cs.map Char.toLower) = startsCased cs := by
  have hignorable : inRanges caseIgnorableRanges ∘ Char.toLower = inRanges caseIgnorableRanges :=
    funext fun c => (loweredAlike c).isCaseIgnorable
  unfold startsCased
  rw [List.dropWhile_map, hignorable]
  cases cs.dropWhile (inRanges caseIgnorableRanges) with
  | nil => rfl
  | cons c rest => exact (loweredAlike c).isCased

theorem lowerAfter_map_toLower (cs : List Char) : ∀ before : List Char,
    lowerAfter (before.map Char.toLower) (cs.map Char.toLower) = lowerAfter before cs := by
  induction cs with
  | nil => exact fun before => rfl
  | cons c cs ih =>
    intro before
    have hc := loweredAlike c
    have hrest := ih (c :: before)
    rw [List.map_cons] at hrest
    rw [List.map_cons, lowerAfter, lowerAfter, hrest, startsCased_map_toLower,
      startsCased_map_toLower, hc.lowerChar]
    simp only [hc.isSigma]

/-- Texts that differ in the case of ASCII letters have the same lower-case form. -/
theorem lowercase_congr {s t : String}
    (h : s.toList.map Char.toLower = t.toList.map Char.toLower) : lowercase s = lowercase t := by
  unfold lowercase
  rw [← lowerAfter_map_toLower s.toList, ← lowerAfter_map_toLower t.toList, h]

/-- Lowering a text neither adds nor takes a point. -/
theorem point_mem_lowerAfter_iff (cs : List Char) : ∀ {before : List Char},
    '.' ∈ lowerAfter before cs ↔ '.' ∈ cs := by
  induction cs with
  | nil => exact fun {before} => Iff.rfl
  | cons c cs ih =>
    intro before
    rw [lowerAfter, List.mem_append, ih, List.mem_cons]
    refine or_congr_left ?_
    split
    next hc =>
      subst hc
      refine iff_of_false ?_ (by decide)
      rw [List.mem_singleton]
      split <;> decide
    next => rw [point_mem_lowerChar_iff, eq_comm]

end Cochange.Text
