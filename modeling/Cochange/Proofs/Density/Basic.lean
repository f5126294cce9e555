import Mathlib.Algebra.BigOperators.Field
import Mathlib.Algebra.Order.BigOperators.Group.Finset
import Mathlib.Algebra.Order.Field.Rat
import Mathlib.Data.Finset.Powerset
import Mathlib.Tactic.Linarith
import Mathlib.Tactic.Ring

/-!
# The density of a set of nodes

Nodes are coupled by any amounts, given for every two of them. The degree of a node in a set is
what it is coupled with the nodes of the set; the density of a set is the sum of the degrees in
it, divided by its size.

Without any coupling below zero a set can be compared with a denser one by degrees alone:

* `half_density_le_degreeIn`: in a set that is densest among its subsets, every degree is at
  least half the density.
* `le_density_of_le_degreeIn`: a set is as dense as its least degree.

A set that falls into parts that are not coupled is no denser than the densest of them
(`density_lt_of_parts`).
-/

namespace Cochange

variable {α : Type} {W : α → α → Rat} {S T : Finset α} {u v : α}

/-- How much a node is coupled with the nodes of a set. -/
def degreeIn (W : α → α → Rat) (S : Finset α) (v : α) : Rat :=
  ∑ u ∈ S, W v u

/-- The sum of the degrees of all nodes of a set in it. -/
def degreeSum (W : α → α → Rat) (S : Finset α) : Rat :=
  ∑ v ∈ S, degreeIn W S v

/-- The sum of the degrees in a set, divided by its size. -/
def density (W : α → α → Rat) (S : Finset α) : Rat :=
  degreeSum W S / S.card

/-- Nodes are coupled with each other, and none with itself. -/
structure Mutual (W : α → α → Rat) : Prop where
  symm : ∀ u v, W u v = W v u
  self : ∀ v, W v v = 0

/-- The density of a set, once for each of its nodes, makes up its degrees. -/
theorem density_mul_card (hS : S.Nonempty) : density W S * S.card = degreeSum W S := by
  have hc : (S.card : Rat) ≠ 0 := Nat.cast_ne_zero.mpr hS.card_ne_zero
  rw [density, div_mul_cancel₀ _ hc]

/-! ## Degrees and densities -/

/-- Degrees are larger in a larger set, if no coupling is negative. -/
theorem degreeIn_mono (hW : ∀ u v, 0 ≤ W u v) (hTS : T ⊆ S) (v : α) :
    degreeIn W T v ≤ degreeIn W S v :=
  Finset.sum_le_sum_of_subset_of_nonneg hTS fun u _ _ => hW v u

/-- A set is as dense as its least degree. -/
theorem le_density_of_le_degreeIn {c : Rat} (hS : S.Nonempty) (hc : ∀ v ∈ S, c ≤ degreeIn W S v) :
    c ≤ density W S := by
  have hpos : (0 : Rat) < S.card := Nat.cast_pos.mpr hS.card_pos
  rw [density, le_div_iff₀ hpos, mul_comm, ← nsmul_eq_mul]
  exact Finset.card_nsmul_le_sum S _ c hc

/-- Among the parts of a set one is densest. -/
theorem exists_densest (W : α → α → Rat) (hS : S.Nonempty) :
    ∃ T ⊆ S, T.Nonempty ∧ ∀ T' ⊆ S, T'.Nonempty → density W T' ≤ density W T := by
  have hne : (S.powerset.filter fun T => T.Nonempty).Nonempty :=
    ⟨S, Finset.mem_filter.mpr ⟨Finset.mem_powerset_self S, hS⟩⟩
  obtain ⟨T, hT, hmax⟩ := Finset.exists_max_image _ (density W) hne
  rw [Finset.mem_filter, Finset.mem_powerset] at hT
  exact ⟨T, hT.1, hT.2, fun T' hT' hne' =>
    hmax T' (Finset.mem_filter.mpr ⟨Finset.mem_powerset.mpr hT', hne'⟩)⟩

section Renamed

variable {β : Type} [DecidableEq β] {f : α → β} {W' : β → β → Rat}

/-- Nodes that are renamed have the degrees that they had. -/
theorem degreeIn_image (hf : Set.InjOn f S) (hW : ∀ u ∈ S, ∀ v ∈ S, W' (f u) (f v) = W u v)
    (hv : v ∈ S) : degreeIn W' (S.image f) (f v) = degreeIn W S v := by
  rw [degreeIn, Finset.sum_image hf]
  exact Finset.sum_congr rfl fun u hu => hW v hv u hu

/-- Nodes that are renamed are as densely coupled as before. -/
theorem density_image (hf : Set.InjOn f S) (hW : ∀ u ∈ S, ∀ v ∈ S, W' (f u) (f v) = W u v) :
    density W' (S.image f) = density W S := by
  rw [density, density, degreeSum, Finset.sum_image hf, Finset.card_image_of_injOn hf]
  exact congrArg (· / _) (Finset.sum_congr rfl fun v hv => degreeIn_image hf hW hv)

end Renamed

/-! ## Parts -/

section Parts

variable {β : Type} [DecidableEq β] {part : α → β}

/-- If only nodes of one part are coupled, a node has its whole degree in its part. -/
theorem degreeIn_filter_part (hW : ∀ u ∈ S, ∀ v ∈ S, part u ≠ part v → W u v = 0)
    (hv : v ∈ S) : degreeIn W (S.filter fun u => part u = part v) v = degreeIn W S v := by
  rw [degreeIn, degreeIn, Finset.sum_filter]
  refine Finset.sum_congr rfl fun u hu => ?_
  split
  next => rfl
  next hne => rw [hW v hv u hu (Ne.symm hne)]

/-- If no two parts are coupled, the degrees in a set are those in its parts. -/
theorem degreeSum_eq_sum_parts (hW : ∀ u ∈ S, ∀ v ∈ S, part u ≠ part v → W u v = 0) :
    degreeSum W S = ∑ p ∈ S.image part, degreeSum W (S.filter fun u => part u = p) := by
  rw [degreeSum, ← Finset.sum_fiberwise_of_maps_to fun v hv => Finset.mem_image_of_mem part hv]
  refine Finset.sum_congr rfl fun p _ => Finset.sum_congr rfl fun v hv => ?_
  rw [← (Finset.mem_filter.mp hv).2]
  exact (degreeIn_filter_part hW (Finset.mem_filter.mp hv).1).symm

/-- A set is less dense than `c` if all its parts are and no two of them are coupled. -/
theorem density_lt_of_parts {c : Rat} (hW : ∀ u ∈ S, ∀ v ∈ S, part u ≠ part v → W u v = 0)
    (hS : S.Nonempty) (hc : ∀ p ∈ S.image part, density W (S.filter fun u => part u = p) < c) :
    density W S < c := by
  have hpos : (0 : Rat) < S.card := Nat.cast_pos.mpr hS.card_pos
  have hcard : (S.card : Rat) = ∑ p ∈ S.image part, ((S.filter fun u => part u = p).card : Rat) := by
    rw [← Nat.cast_sum, ← Finset.card_eq_sum_card_image]
  rw [density, div_lt_iff₀ hpos, degreeSum_eq_sum_parts hW, hcard, Finset.mul_sum]
  -- every part has a node, so the comparison is strict in each
  refine Finset.sum_lt_sum_of_nonempty (hS.image part) fun p hp => ?_
  obtain ⟨v, hv, hvp⟩ := Finset.mem_image.mp hp
  have hne : (S.filter fun u => part u = p).Nonempty := ⟨v, Finset.mem_filter.mpr ⟨hv, hvp⟩⟩
  rw [← density_mul_card hne]
  exact mul_lt_mul_of_pos_right (hc p hp) (Nat.cast_pos.mpr hne.card_pos)

end Parts

variable [DecidableEq α]

/-! ## One node less -/

/-- Without a node the degrees are less by the coupling to it. -/
theorem degreeIn_erase (hv : v ∈ S) (u : α) :
    degreeIn W (S.erase v) u = degreeIn W S u - W u v := by
  rw [degreeIn, degreeIn, ← Finset.sum_erase_add S (W u) hv, add_sub_cancel_right]

/-- A node's couplings are counted twice: for itself and for those it is coupled with. -/
theorem degreeSum_erase (hW : Mutual W) (hv : v ∈ S) :
    degreeSum W (S.erase v) = degreeSum W S - 2 * degreeIn W S v := by
  -- what the others lose is what the node is coupled with them
  have hrow : ∑ u ∈ S.erase v, W u v = degreeIn W S v := by
    rw [degreeIn, ← Finset.sum_erase_add S (W v) hv, hW.self, add_zero]
    exact Finset.sum_congr rfl fun u _ => hW.symm u v
  calc degreeSum W (S.erase v)
      = ∑ u ∈ S.erase v, (degreeIn W S u - W u v) :=
        Finset.sum_congr rfl fun u _ => degreeIn_erase hv u
    _ = ∑ u ∈ S.erase v, degreeIn W S u - degreeIn W S v := by
        rw [Finset.sum_sub_distrib, hrow]
    _ = degreeSum W S - 2 * degreeIn W S v := by
        rw [degreeSum, ← Finset.sum_erase_add S (degreeIn W S) hv]
        ring

/-- A node without which a set is no denser has at least half the density for its degree. -/
theorem half_density_le_of_erase (hW : Mutual W) (hv : v ∈ S)
    (hmax : (S.erase v).Nonempty → density W (S.erase v) ≤ density W S) :
    density W S / 2 ≤ degreeIn W S v := by
  have hS : S.Nonempty := ⟨v, hv⟩
  have hsum := density_mul_card (W := W) hS
  have hcard : ((S.erase v).card : Rat) = S.card - 1 := by
    rw [Finset.card_erase_of_mem hv, Nat.cast_sub hS.card_pos, Nat.cast_one]
  have herase := degreeSum_erase hW hv
  -- without the node the set would be denser if the degree were less
  have hle : degreeSum W (S.erase v) ≤ density W S * (S.card - 1) := by
    by_cases he : (S.erase v).Nonempty
    · rw [← hcard, ← density_mul_card he]
      exact mul_le_mul_of_nonneg_right (hmax he) (Nat.cast_nonneg _)
    · rw [Finset.not_nonempty_iff_eq_empty] at he
      rw [he, Finset.card_empty, Nat.cast_zero] at hcard
      rw [he, ← hcard, mul_zero]
      exact le_of_eq Finset.sum_empty
  rw [herase, ← hsum] at hle
  linarith

/-- If no part of a set is denser than it, every degree is at least half its density. -/
theorem half_density_le_degreeIn (hW : Mutual W)
    (hmax : ∀ T ⊆ S, T.Nonempty → density W T ≤ density W S) (hv : v ∈ S) :
    density W S / 2 ≤ degreeIn W S v :=
  half_density_le_of_erase hW hv (hmax _ (Finset.erase_subset v S))

end Cochange
