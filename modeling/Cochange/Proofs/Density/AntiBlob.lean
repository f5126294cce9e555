import Cochange.Proofs.Density.Degrees
import Cochange.Proofs.Graph.Dangling

/-!
# What the anti-blob is

The anti-blob holds every label that is coupled with the others weakly enough, and no other, as soon
as there are enough of these labels (`weakLabels`). Its density adds up the edges that touch it, each
once, while the degrees of its labels count the edges between two of them twice. If every edge joins
two nodes, the degrees exceed the edges by just what is inside (`sum_degreeIn`). So without any
coupling below zero the anti-blob is no denser than its labels are coupled
(`findAntiBlob_maximal`).
-/

namespace Cochange

namespace Graph

variable {g : Graph Rat} {maxCoupling : Rat} {minSize : Nat} {l : String}

/-! ## The labels -/

/-- A set of labels has as many as the finite set with the same members. -/
theorem size_eq_card {ls : LabelSet} {T : Finset String} (h : ∀ l, l ∈ ls ↔ l ∈ T) :
    ls.size = T.card := by
  rw [← card_toFinset_toList]
  refine congrArg Finset.card (Finset.ext fun l => ?_)
  rw [List.mem_toFinset, Std.ExtTreeSet.mem_toList, h]

/-- The weakly coupled labels are chosen if there are enough of them. -/
theorem weaklyCoupled_eq (hmax : 0 ≤ maxCoupling) (hmin : 1 ≤ minSize) :
    ∃ ls : LabelSet, (∀ l, l ∈ ls ↔ l ∈ g.weakLabels maxCoupling) ∧
      weaklyCoupled g.degrees maxCoupling minSize =
        .ok (if (g.weakLabels maxCoupling).card < minSize then none else some ls) := by
  refine ⟨_, fun l => mem_chosen, ?_⟩
  have hnonneg : Weight.isNonnegative maxCoupling = true := decide_eq_true hmax
  rw [weaklyCoupled, hnonneg, if_neg (by decide), if_neg (by omega)]
  dsimp only
  rw [size_eq_card fun l => mem_chosen]
  split
  next => rfl
  next => rfl

/-! ## The density -/

/-- What an edge between two nodes adds to the degrees of some labels: its coupling if it touches
them, and once more if it is inside. -/
theorem sum_couples_touching {e : Edge Rat} {N : Finset String} (hs : e.source ∈ N)
    (ht : e.target ∈ N) (T : Finset String) :
    ∑ u ∈ T, ∑ v ∈ N, couples e u v =
      (if e.source ≠ e.target ∧ (e.source ∈ T ∨ e.target ∈ T) then e.coupling else 0) +
        if e.source ≠ e.target ∧ e.source ∈ T ∧ e.target ∈ T then e.coupling else 0 := by
  simp only [sum_couples_row, hs, ht, and_true]
  by_cases hne : e.source = e.target
  · simp [hne]
  · simp only [ne_eq, hne, not_false_eq_true, if_true, true_and, Finset.sum_add_distrib,
      Finset.sum_ite_eq]
    by_cases hsT : e.source ∈ T <;> by_cases htT : e.target ∈ T <;> simp [hsT, htT]

/-- The couplings of some edges, added up among all of them. -/
theorem sum_filter_coupling (p : Edge Rat → Bool) (es : List (Edge Rat)) :
    ((es.filter p).map (·.coupling)).sum = (es.map fun e => if p e then e.coupling else 0).sum := by
  rw [List.sum_map_ite]
  simp

/-- In the degrees of some labels the edges that touch them count, and those inside twice. -/
theorem sum_degreeIn (hjoins : ∀ e ∈ g.edges, g.Joins e) {ls : LabelSet} {T : Finset String}
    (hT : ∀ l, l ∈ ls ↔ l ∈ T) :
    ∑ l ∈ T, degreeIn g.joined g.nodeSet l =
      ((g.touching ls).map (·.coupling)).sum + g.inside T := by
  have hedge : ∀ e ∈ g.edges, ∑ l ∈ T, ∑ v ∈ g.nodeSet, couples e l v =
      (if e.source ≠ e.target && (ls.contains e.source || ls.contains e.target) then e.coupling
        else 0) +
        if decide (e.source ≠ e.target ∧ e.source ∈ T ∧ e.target ∈ T) then e.coupling else 0 := by
    intro e he
    rw [sum_couples_touching (mem_nodeSet.mpr (hjoins e he).1) (mem_nodeSet.mpr (hjoins e he).2)]
    simp only [Bool.and_eq_true, Bool.or_eq_true, decide_eq_true_eq,
      Std.ExtTreeSet.contains_iff_mem, hT]
  calc ∑ l ∈ T, degreeIn g.joined g.nodeSet l
      = ∑ l ∈ T, (g.edges.map fun e => ∑ v ∈ g.nodeSet, couples e l v).sum :=
        Finset.sum_congr rfl fun l _ => degreeIn_joined g g.nodeSet l
    _ = (g.edges.map fun e => ∑ l ∈ T, ∑ v ∈ g.nodeSet, couples e l v).sum :=
        (Multiset.sum_map_sum (m := (g.edges : Multiset (Edge Rat)))).symm
    _ = ((g.touching ls).map (·.coupling)).sum + g.inside T := by
        rw [List.map_congr_left hedge, List.sum_map_add, touching, inside, sum_filter_coupling,
          sum_filter_coupling]

/-- Without any coupling below zero nothing inside is below zero. -/
theorem inside_nonneg (hnonneg : ∀ e ∈ g.edges, 0 ≤ e.coupling) (T : Finset String) :
    0 ≤ g.inside T := by
  refine List.sum_nonneg fun c hc => ?_
  obtain ⟨e, he, rfl⟩ := List.mem_map.mp hc
  exact hnonneg e (List.mem_of_mem_filter he)

/-- The edges that touch weakly coupled labels are worth no more than each label may be coupled. -/
theorem sum_touching_le (hjoins : ∀ e ∈ g.edges, g.Joins e)
    (hnonneg : ∀ e ∈ g.edges, 0 ≤ e.coupling) {ls : LabelSet}
    (hls : ∀ l, l ∈ ls ↔ l ∈ g.weakLabels maxCoupling) :
    ((g.touching ls).map (·.coupling)).sum ≤ ls.size * maxCoupling := by
  calc ((g.touching ls).map (·.coupling)).sum
      ≤ ((g.touching ls).map (·.coupling)).sum + g.inside (g.weakLabels maxCoupling) :=
        le_add_of_nonneg_right (inside_nonneg hnonneg _)
    _ = ∑ l ∈ g.weakLabels maxCoupling, degreeIn g.joined g.nodeSet l :=
        (sum_degreeIn hjoins hls).symm
    _ ≤ (g.weakLabels maxCoupling).card • maxCoupling :=
        Finset.sum_le_card_nsmul _ _ _ fun l hl => (mem_weakLabels.mp hl).2
    _ = ls.size * maxCoupling := by rw [nsmul_eq_mul, size_eq_card hls]

/-- If every edge joins two nodes and no coupling is below zero, the search gives an anti-blob if and
only if there are enough labels whose coupling with all others is within the bound. It then holds
exactly these labels. Its density is that of the edges between different labels that touch it, each
counted once, and is within the bound as well. -/
theorem findAntiBlob_maximal (g : Graph Rat) {maxCoupling : Rat} {minSize : Nat}
    (hjoins : ∀ e ∈ g.edges, g.Joins e) (hnonneg : ∀ e ∈ g.edges, 0 ≤ e.coupling)
    (hmax : 0 ≤ maxCoupling) (hmin : 1 ≤ minSize) :
    ∃ found, g.findAntiBlob maxCoupling minSize = .ok found ∧
      ((∃ a, found = some a) ↔ minSize ≤ (g.weakLabels maxCoupling).card) ∧
      ∀ a, found = some a →
        (∀ l, l ∈ a.nodes ↔ l ∈ g.weakLabels maxCoupling) ∧
        a.density = ((g.touching a.nodes).map (·.coupling)).sum / a.size ∧
        a.density ≤ maxCoupling := by
  obtain ⟨ls, hls, hchosen⟩ := weaklyCoupled_eq (g := g) hmax hmin
  rw [findAntiBlob_eq, hchosen]
  by_cases hfew : (g.weakLabels maxCoupling).card < minSize
  · rw [if_pos hfew]
    refine ⟨none, rfl, iff_of_false ?_ (Nat.not_le.mpr hfew), fun a ha => by cases ha⟩
    intro ⟨a, ha⟩
    cases ha
  · rw [if_neg hfew]
    refine ⟨some (g.touched ls), rfl, iff_of_true ⟨_, rfl⟩ (Nat.not_lt.mp hfew), ?_⟩
    rintro a ⟨⟩
    have hdensity : (g.touched ls).density =
        ((g.touching ls).map (·.coupling)).sum / ls.size := by
      rw [← Weight.rat_sum]
      rfl
    have hsize : (0 : Rat) < ls.size := by
      rw [size_eq_card hls]
      exact_mod_cast hmin.trans (Nat.not_lt.mp hfew)
    refine ⟨hls, hdensity, ?_⟩
    rw [hdensity, div_le_iff₀ hsize, mul_comm]
    exact sum_touching_le hjoins hnonneg hls

/-- Two nodes that are joined twice and only weakly coupled, and two that are coupled strongly. -/
def doubledEdge : Graph Rat where
  label := "g"
  nodes := ["a", "b", "c", "d"].map fun l => ⟨l, 4⟩
  edges :=
    [⟨"a", "b", 1, 1 / 4⟩, ⟨"a", "a", 4, 3⟩, ⟨"b", "a", 1, 1 / 8⟩, ⟨"b", "c", 1, 1 / 8⟩,
      ⟨"c", "d", 4, 2⟩]

/-- The loop does not count, the edge that leads out of the anti-blob does, and each of the two
inside it once. -/
theorem findAntiBlob_maximal_doubled :
    ∃ a, doubledEdge.findAntiBlob (1 / 2) 2 = .ok (some a) ∧ a.nodes.toList = ["a", "b"] ∧
      a.density = 1 / 4 ∧ 2 ≤ (doubledEdge.weakLabels (1 / 2)).card ∧ a.density ≤ 1 / 2 := by
  have hjoins : ∀ e ∈ doubledEdge.edges, doubledEdge.Joins e := by
    intro e he
    refine joins_iff.mp ?_
    revert e
    decide +kernel
  have hseen : ((doubledEdge.findAntiBlob (1 / 2) 2).toOption.getD none).map (fun a =>
      (a.nodes.toList, a.density)) = some (["a", "b"], 1 / 4) := by decide +kernel
  obtain ⟨a, ha, hy⟩ := exists_found hseen
  obtain ⟨hnodes, hdensity⟩ := Prod.mk.inj hy
  obtain ⟨found, hfound, henough, hmaximal⟩ :=
    doubledEdge.findAntiBlob_maximal hjoins (by decide +kernel)
      (show (0 : Rat) ≤ 1 / 2 by decide +kernel) (show 1 ≤ 2 by decide)
  obtain rfl : found = some a := Except.ok.inj (hfound.symm.trans ha)
  exact ⟨a, ha, hnodes, hdensity, henough.mp ⟨a, rfl⟩, (hmaximal a rfl).2.2⟩

end Graph

end Cochange
