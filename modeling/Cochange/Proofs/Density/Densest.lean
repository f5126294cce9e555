import Cochange.Proofs.Density.Peeling
import Mathlib.Tactic.Tauto

/-!
# The peeling is the plain search

The peeling remembers the best set so far by the members taken away from it. It is always the
first of the densest among the sets on the way (`Leads`), and at the end this is the answer of
the plain search (`densestWithin_eq_plain`).

Without any coupling below zero the answer is therefore at least half as dense as any set of
members (`half_density_le_densestWithin`).
-/

namespace Cochange

/-! ## The best set -/

/-- The places of the members that are not in a set. -/
def Drops (members : List Nat) (R : Finset Nat) (dropped : List Nat) : Prop :=
  ∀ i m, members[i]? = some m → (i ∈ dropped ↔ m ∉ R)

/-- The members that were not dropped are those in the set. -/
theorem filterMap_drops {members : List Nat} {R : Finset Nat} {dropped : List Nat}
    (hd : Drops members R dropped) :
    (members.zipIdx.filterMap fun m => if m.2 ∈ dropped then none else some m.1) =
      members.filter fun m => m ∈ R := by
  have hguard : ∀ m ∈ members.zipIdx, (if m.2 ∈ dropped then none else some m.1) =
      Option.guard (fun m => decide (m ∈ R)) m.1 := by
    intro m hm
    have hi := hd m.2 m.1 (List.mem_zipIdx_iff_getElem?.mp hm)
    by_cases hR : m.1 ∈ R
    · rw [if_neg fun hc => hi.mp hc hR, Option.guard, if_pos (decide_eq_true hR)]
    · rw [if_pos (hi.mpr hR), Option.guard, if_neg (by rw [decide_eq_true_eq]; exact hR)]
  have hfst := List.zipIdx_map_fst 0 members
  rw [List.filterMap_congr hguard, ← List.filterMap_eq_filter]
  conv_rhs => rw [← hfst]
  rw [List.filterMap_map]
  rfl

/-- Of the first `k + 1` sets on the way the one after `j` steps is the first of the densest,
and `best` is its density with the places of the members that are not in it. -/
structure Leads (W : Nat → Nat → Rat) (members : List Nat) (k j : Nat)
    (best : Rat × List Nat) : Prop where
  le : j ≤ k
  value : best.1 = density W (remains W members.toFinset j)
  drops : Drops members (remains W members.toFinset j) best.2
  first : ∀ i < j, density W (remains W members.toFinset i) < best.1
  max : ∀ i ≤ k, density W (remains W members.toFinset i) ≤ best.1

/-- With one more set on the way the best one is that or the one before. -/
theorem Leads.step {W : Nat → Nat → Rat} {members : List Nat} {k j : Nat}
    {best : Rat × List Nat} (hl : Leads W members k j best) {peeled : List Nat}
    (hd : Drops members (remains W members.toFinset (k + 1)) peeled) {d : Rat}
    (hdens : d = density W (remains W members.toFinset (k + 1))) :
    ∃ j', Leads W members (k + 1) j' (if Weight.lt best.1 d then (d, peeled) else best) := by
  by_cases hlt : best.1 < d
  · rw [if_pos (Weight.rat_lt.mpr hlt)]
    refine ⟨k + 1, Nat.le_refl _, hdens, hd, fun i hi => ?_, fun i hi => ?_⟩
    · exact (hl.max i (by omega)).trans_lt hlt
    · by_cases hik : i ≤ k
      · exact ((hl.max i hik).trans_lt hlt).le
      · rw [show i = k + 1 by omega]
        exact hdens.ge
  · rw [if_neg fun hc => hlt (Weight.rat_lt.mp hc)]
    refine ⟨j, Nat.le_succ_of_le hl.le, hl.value, hl.drops, hl.first, fun i hi => ?_⟩
    by_cases hik : i ≤ k
    · exact hl.max i hik
    · rw [show i = k + 1 by omega, ← hdens]
      exact not_lt.mp hlt

/-- The search among members is the peeling of their places. -/
theorem densestWithin_eq {count : Nat} {links : List (Link Rat)} {members : List Nat}
    {found : Rat × List Nat}
    (hf : Peel.densest (.ofLinks members.length (Graph.linksWithin count members links)) = found) :
    Graph.densestWithin count links members =
      (members.zipIdx.filterMap fun m => if m.2 ∈ found.2 then none else some m.1, found.1) := by
  rw [← hf]
  rfl

section Search

variable {count : Nat} {members : List Nat} {links : List (Link Rat)}
variable (hlinks : ∀ l ∈ links, l.source ≠ l.target) (hsorted : members.Pairwise (· < ·))
variable (hlt : ∀ m ∈ members, m < count)

include hlinks hsorted hlt

/-- What is peeled in whatever is left is the densest stage from there on. -/
theorem go_leads {left : Nat} : ∀ {k j : Nat} {p : Peel Rat} {peeled : List Nat}
    {best : Rat × List Nat}, 0 < left → k + left = members.length →
    Tracks links members (remains (coupled links) members.toFinset k) p →
    Drops members (remains (coupled links) members.toFinset k) peeled →
    Leads (coupled links) members k j best →
    ∃ j', Leads (coupled links) members (members.length - 1) j'
      (Peel.go (.ofLinks members.length (Graph.linksWithin count members links)) left p peeled
        best) := by
  have hcard := List.toFinset_card_of_nodup (hsorted.imp ne_of_lt)
  induction left with
  | zero => exact fun h0 => absurd h0 (lt_irrefl 0)
  | succ left ih =>
    intro k j p peeled best _ hk ht hd hl
    obtain ⟨v, hv⟩ := exists_weakest (W := coupled links)
      (remains_nonempty (show k < members.toFinset.card by omega))
    obtain ⟨x, p', hp', hx, ht'⟩ := ht.next hlinks hsorted hlt (fun u => mem_of_mem_remains) hv
    rw [← remains_succ hv] at ht'
    have hd' : Drops members (remains (coupled links) members.toFinset (k + 1)) (x :: peeled) := by
      intro i m hi
      rw [remains_succ hv, List.mem_cons, hd i m hi, Finset.mem_erase,
        getElem?_inj hsorted hi hx]
      tauto
    unfold Peel.go
    rw [hp']
    by_cases h0 : left = 0
    -- nothing is left, and the empty set is not compared
    · refine ⟨j, ?_⟩
      rw [show members.length - 1 = k by omega]
      simp only [h0, if_true]
      exact hl
    · have hdens : Weight.divNat p'.degreeSum left =
          density (coupled links) (remains (coupled links) members.toFinset (k + 1)) := by
        rw [density, ← ht'.degreeSum, card_remains, hcard,
          show members.length - (k + 1) = left by omega]
        rfl
      obtain ⟨j', hl'⟩ := hl.step hd' hdens
      simp only [h0, if_false]
      exact ih (Nat.pos_of_ne_zero h0) (by omega) ht' hd' hl'

/-- The peeling leads to the first of the densest sets on the way. -/
theorem densest_leads (hne : members ≠ []) :
    ∃ j, Leads (coupled links) members (members.length - 1) j
      (Peel.densest (.ofLinks members.length (Graph.linksWithin count members links))) := by
  have hcard := List.toFinset_card_of_nodup (hsorted.imp ne_of_lt)
  have ht := tracks_start hlinks hsorted hlt
  have hd : Drops members (remains (coupled links) members.toFinset 0) [] := by
    intro i m hi
    have hm : m ∈ remains (coupled links) members.toFinset 0 :=
      List.mem_toFinset.mpr (List.mem_of_getElem? hi)
    simp [hm]
  have hvalue : Weight.divNat (Peel.start (.ofLinks members.length
      (Graph.linksWithin count members links))).degreeSum members.length =
      density (coupled links) (remains (coupled links) members.toFinset 0) := by
    rw [ht.degreeSum, ← hcard]
    rfl
  unfold Peel.densest
  rw [size_ofLinks]
  refine go_leads hlinks hsorted hlt (List.length_pos_iff.mpr hne) (Nat.zero_add _) (k := 0)
    (j := 0) ht hd ⟨Nat.le_refl 0, hvalue, hd, fun i hi => absurd hi (by omega), fun i hi => ?_⟩
  rw [show i = 0 by omega]
  exact hvalue.ge

/-- The search finds one of the sets on the way that is as dense as any of them. -/
theorem densestWithin_spec (hne : members ≠ []) :
    ∃ j < members.length,
      Graph.densestWithin count links members =
        (members.filter fun m => m ∈ remains (coupled links) members.toFinset j,
          density (coupled links) (remains (coupled links) members.toFinset j)) ∧
      ∀ i < members.length, density (coupled links) (remains (coupled links) members.toFinset i) ≤
        (Graph.densestWithin count links members).2 := by
  obtain ⟨j, hl⟩ := densest_leads hlinks hsorted hlt hne
  have hle := hl.le
  have hpos := List.length_pos_iff.mpr hne
  have heq : Graph.densestWithin count links members = _ := densestWithin_eq rfl
  rw [filterMap_drops hl.drops] at heq
  refine ⟨j, by omega, by rw [heq, hl.value], fun i hi => ?_⟩
  rw [heq]
  exact hl.max i (by omega)

/-- No set of members is more than twice as dense as the one found. -/
theorem half_density_le_densestWithin (hnonneg : ∀ l ∈ links, 0 ≤ l.coupling) {T : Finset Nat}
    (hT : T ⊆ members.toFinset) (hTne : T.Nonempty) :
    density (coupled links) T / 2 ≤ (Graph.densestWithin count links members).2 := by
  have hne : members ≠ [] := by
    intro he
    rw [he, List.toFinset_nil, Finset.subset_empty] at hT
    exact hTne.ne_empty hT
  obtain ⟨j, -, -, hmax⟩ := densestWithin_spec hlinks hsorted hlt hne
  obtain ⟨k, hk, hle⟩ :=
    half_density_le_remains (coupled_mutual hlinks) (coupled_nonneg hnonneg) hT hTne
  rw [List.toFinset_card_of_nodup (hsorted.imp ne_of_lt)] at hk
  exact hle.trans (hmax k hk)

end Search

/-! ## The answers agree -/

/-- The search gives the answer of the plain one, and each of its stages has what the plain one
computes anew: the remaining members, their degrees and the sum of these. -/
theorem densestWithin_eq_plain (count : Nat) (links : List (Link Rat)) (members : List Nat)
    (hlinks : ∀ l ∈ links, l.source ≠ l.target) (hsorted : members.Pairwise (· < ·))
    (hlt : ∀ m ∈ members, m < count) (hne : members ≠ []) :
    (∃ best, plainDensest (coupled links) members.toFinset = some best ∧
      Graph.densestWithin count links members =
        (members.filter fun m => m ∈ best, density (coupled links) best)) ∧
    ∀ k ≤ members.length, ∃ p,
      Peel.stage? (.ofLinks members.length (Graph.linksWithin count members links)) k = some p ∧
        Tracks links members (remains (coupled links) members.toFinset k) p := by
  refine ⟨?_, fun k hk => exists_stage hlinks hsorted hlt hk⟩
  have hcard := List.toFinset_card_of_nodup (hsorted.imp ne_of_lt)
  have hpos := List.length_pos_iff.mpr hne
  obtain ⟨j, hl⟩ := densest_leads hlinks hsorted hlt hne
  have hle := hl.le
  refine ⟨_, plainDensest_eq_some (k := j) (by omega) (fun i hi => ?_) fun i hi => ?_, ?_⟩
  · exact (hl.first i hi).trans_eq hl.value
  · exact (hl.max i (by omega)).trans_eq hl.value
  · rw [densestWithin_eq rfl, filterMap_drops hl.drops, hl.value]

/-- Four nodes in a row, of which the first two are joined by two links. -/
def twinLinks : List (Link Rat) :=
  [⟨1, 2, 1 / 2⟩, ⟨4, 3, 1 / 10⟩, ⟨2, 1, 1 / 4⟩, ⟨2, 3, 1⟩]

/-- Of four nodes in a row the last one is dropped, where two links between the same nodes count
together. -/
theorem densestWithin_eq_plain_twins :
    ∃ best, plainDensest (coupled twinLinks) [1, 2, 3, 4].toFinset = some best ∧
      Graph.densestWithin 6 twinLinks [1, 2, 3, 4] = ([1, 2, 3], 7 / 6) ∧
      ([1, 2, 3, 4].filter fun m => m ∈ best) = [1, 2, 3] ∧
      density (coupled twinLinks) best = 7 / 6 := by
  obtain ⟨⟨best, hb, hd⟩, -⟩ :=
    densestWithin_eq_plain 6 twinLinks [1, 2, 3, 4] (by decide) (by decide) (by decide) (by decide)
  have hv : Graph.densestWithin 6 twinLinks [1, 2, 3, 4] = ([1, 2, 3], 7 / 6) := by
    decide +kernel
  rw [hv, Prod.mk.injEq] at hd
  exact ⟨best, hb, hv, hd.1.symm, hd.2.symm⟩

end Cochange
