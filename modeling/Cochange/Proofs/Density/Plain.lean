import Cochange.Proofs.Density.Basic
import Mathlib.Data.Finset.Sort
import Mathlib.Data.List.MinMax
import Mathlib.Data.Prod.Lex

/-!
# The plain search for a dense set

The same search without a heap: at every step all degrees in what remains are computed anew, the
node that is first by degree and number is taken away, and of all the sets on the way the largest
of the densest is the answer. Nothing is remembered between the steps, so this is what the
search is for rather than how it is done.

Main results:

* `plainDensest_eq_some`: the answer is the first of the densest sets on the way.
* `half_density_le_remains`: without any coupling below zero, some set on the way is at least
  half as dense as any given set of nodes. It is what remains before the first node of a densest
  set is taken away.
-/

namespace Cochange

variable {W : Nat → Nat → Rat} {S T : Finset Nat} {u v : Nat}

/-- What the next node to be taken away is chosen by. -/
def weakness (W : Nat → Nat → Rat) (S : Finset Nat) (v : Nat) : Rat ×ₗ Nat :=
  toLex (degreeIn W S v, v)

/-- The node of least degree, and the least of several. -/
def weakest? (W : Nat → Nat → Rat) (S : Finset Nat) : Option Nat :=
  S.sort.argmin (weakness W S)

/-- A set without its node of least degree. -/
def dropWeakest (W : Nat → Nat → Rat) (S : Finset Nat) : Finset Nat :=
  match weakest? W S with
  | none => S
  | some v => S.erase v

/-- What remains when so many nodes were taken away. -/
def remains (W : Nat → Nat → Rat) (S : Finset Nat) : Nat → Finset Nat
  | 0 => S
  | k + 1 => dropWeakest W (remains W S k)

/-- The sets on the way from all nodes down to the last one. -/
def stages (W : Nat → Nat → Rat) (S : Finset Nat) : List (Finset Nat) :=
  (List.range S.card).map (remains W S)

/-- The largest of the densest sets on the way. -/
def plainDensest (W : Nat → Nat → Rat) (S : Finset Nat) : Option (Finset Nat) :=
  (stages W S).argmax fun T => toLex (density W T, T.card)

/-! ## The weakest node -/

/-- The weaker of two nodes has the smaller degree, or the smaller number at the same degree. -/
theorem weakness_le_iff :
    weakness W S v ≤ weakness W S u ↔
      degreeIn W S v < degreeIn W S u ∨ (degreeIn W S v = degreeIn W S u ∧ v ≤ u) :=
  Prod.Lex.toLex_le_toLex

theorem weakest?_eq_none : weakest? W S = none ↔ S = ∅ := by
  rw [weakest?, List.argmin_eq_none, ← List.toFinset_eq_empty_iff, Finset.sort_toFinset]

/-- It is the only node of the set that is before or level with all others. -/
theorem weakest?_eq_some :
    weakest? W S = some v ↔ v ∈ S ∧ ∀ u ∈ S, weakness W S v ≤ weakness W S u := by
  have hleast : ∀ {w}, weakest? W S = some w → w ∈ S ∧ ∀ u ∈ S, weakness W S w ≤ weakness W S u :=
    fun hw => ⟨(Finset.mem_sort _).mp (List.argmin_mem hw),
      fun u hu => List.le_of_mem_argmin ((Finset.mem_sort _).mpr hu) hw⟩
  refine ⟨hleast, fun ⟨hv, hle⟩ => ?_⟩
  cases hw : weakest? W S with
  | none =>
    rw [weakest?_eq_none.mp hw] at hv
    exact absurd hv (Finset.notMem_empty v)
  | some w =>
    -- two nodes that are level are the same, since the order ends with the number
    have heq := le_antisymm (hle w (hleast hw).1) ((hleast hw).2 v hv)
    exact congrArg some (congrArg Prod.snd (toLex.injective heq)).symm

/-- Where there are nodes, one of them is the weakest. -/
theorem exists_weakest (hS : S.Nonempty) : ∃ v, weakest? W S = some v := by
  rw [← Option.isSome_iff_exists, Option.isSome_iff_ne_none]
  exact fun hn => hS.ne_empty (weakest?_eq_none.mp hn)

/-- It has the least degree. -/
theorem degreeIn_weakest_le (hv : weakest? W S = some v) (hu : u ∈ S) :
    degreeIn W S v ≤ degreeIn W S u := by
  rcases weakness_le_iff.mp ((weakest?_eq_some.mp hv).2 u hu) with hlt | ⟨heq, -⟩
  · exact hlt.le
  · exact heq.le

/-! ## What remains -/

/-- One more stage takes out the weakest node. -/
theorem remains_succ {k : Nat} (hv : weakest? W (remains W S k) = some v) :
    remains W S (k + 1) = (remains W S k).erase v := by
  rw [remains, dropWeakest, hv]

/-- Every stage takes out one node. -/
theorem card_remains (W : Nat → Nat → Rat) (S : Finset Nat) (k : Nat) :
    (remains W S k).card = S.card - k := by
  induction k with
  | zero => rfl
  | succ k ih =>
    by_cases hne : (remains W S k).Nonempty
    · obtain ⟨v, hv⟩ := exists_weakest (W := W) hne
      rw [remains_succ hv, Finset.card_erase_of_mem (weakest?_eq_some.mp hv).1, ih]
      omega
    · rw [Finset.not_nonempty_iff_eq_empty] at hne
      have hnone : weakest? W (remains W S k) = none := weakest?_eq_none.mpr hne
      rw [remains, dropWeakest, hnone]
      rw [hne, Finset.card_empty] at ih ⊢
      omega

/-- As long as fewer stages are gone than there are nodes, something remains. -/
theorem remains_nonempty {k : Nat} (hk : k < S.card) : (remains W S k).Nonempty := by
  rw [← Finset.card_pos, card_remains]
  omega

/-- A stage only takes out nodes. -/
theorem remains_succ_subset (W : Nat → Nat → Rat) (S : Finset Nat) (k : Nat) :
    remains W S (k + 1) ⊆ remains W S k := by
  rw [remains, dropWeakest]
  split
  next => exact Finset.Subset.refl _
  next v _ => exact Finset.erase_subset v _

theorem remains_subset (W : Nat → Nat → Rat) (S : Finset Nat) (k : Nat) : remains W S k ⊆ S := by
  induction k with
  | zero => exact Finset.Subset.refl S
  | succ k ih => exact (remains_succ_subset W S k).trans ih

/-! ## The answer -/

/-- The stages are what remains as long as something does. -/
theorem mem_stages : T ∈ stages W S ↔ ∃ k < S.card, remains W S k = T := by
  rw [stages, List.mem_map]
  simp only [List.mem_range]

/-- The first of the densest sets on the way is the largest of them. -/
theorem plainDensest_eq_some {k : Nat} (hk : k < S.card)
    (hfirst : ∀ j < k, density W (remains W S j) < density W (remains W S k))
    (hmax : ∀ j < S.card, density W (remains W S j) ≤ density W (remains W S k)) :
    plainDensest W S = some (remains W S k) := by
  cases hT : plainDensest W S with
  | none =>
    rw [plainDensest, List.argmax_eq_none] at hT
    exact absurd (mem_stages.mpr ⟨k, hk, rfl⟩) (by rw [hT]; exact List.not_mem_nil)
  | some T =>
    obtain ⟨j, hj, rfl⟩ := mem_stages.mp (List.argmax_mem hT)
    have hle := List.le_of_mem_argmax (mem_stages.mpr ⟨k, hk, rfl⟩) hT
    -- the winner is not denser than stage `k`, and of the level ones the first is the largest
    have hjk : j = k := by
      rcases Prod.Lex.toLex_le_toLex.mp hle with hlt | ⟨heq, hcard⟩
      · exact absurd hlt (hmax j hj).not_gt
      · rw [card_remains, card_remains] at hcard
        have hkj : S.card - k ≤ S.card - j := hcard
        by_contra hne
        exact (hfirst j (by omega)).ne heq.symm
    rw [hjk]

/-- Before the first node of a densest set is taken away, no degree is less than its own. -/
theorem half_density_le_remains (hW : Mutual W) (hnonneg : ∀ u v, 0 ≤ W u v) (hT : T ⊆ S)
    (hne : T.Nonempty) : ∃ k < S.card, density W T / 2 ≤ density W (remains W S k) := by
  obtain ⟨D, hD, hDne, hmax⟩ := exists_densest W (hne.mono hT)
  have hex : ∃ k, ¬D ⊆ remains W S k := by
    refine ⟨S.card, fun hsub => ?_⟩
    have hc := Finset.card_le_card hsub
    rw [card_remains, Nat.sub_self] at hc
    exact absurd hDne.card_pos (by omega)
  obtain ⟨k, hk⟩ : ∃ k, Nat.find hex = k + 1 := by
    refine Nat.exists_eq_succ_of_ne_zero fun h0 => ?_
    have hn := Nat.find_spec hex
    rw [h0] at hn
    exact hn hD
  -- the node taken away after `k` steps is the first one of `D`
  have hin : D ⊆ remains W S k := by
    by_contra hn
    exact Nat.find_min hex (by omega) hn
  have hout := Nat.find_spec hex
  rw [hk] at hout
  have hR := hDne.mono hin
  obtain ⟨v, hv⟩ := exists_weakest (W := W) hR
  have hvD : v ∈ D := by
    by_contra hvn
    rw [remains_succ hv] at hout
    exact hout (Finset.subset_erase.mpr ⟨hin, hvn⟩)
  refine ⟨k, ?_, ?_⟩
  · have hc := hR.card_pos
    rw [card_remains] at hc
    omega
  · refine le_density_of_le_degreeIn hR fun u hu => ?_
    calc density W T / 2
        ≤ density W D / 2 := by linarith [hmax T hT hne]
      _ ≤ degreeIn W D v := half_density_le_degreeIn hW
          (fun T' hT' hne' => hmax T' (hT'.trans hD) hne') hvD
      _ ≤ degreeIn W (remains W S k) v := degreeIn_mono hnonneg hin v
      _ ≤ degreeIn W (remains W S k) u := degreeIn_weakest_le hv hu

end Cochange
