import Cochange.Proofs.Graph.Local

/-!
# Disjoint blobs

A blob is taken out of its component before the next one is searched, so no label is in two blobs of
a component, whatever the weights are (`disjoint_searchAmong`). Different components have no label
in common, and of a graph that is too large each label is a blob of its own. So the blobs of a
graph are disjoint (`exists_findBlobs_disjoint`), and at most one of them holds a given label
(`eq_of_mem_blobs`).
-/

namespace Cochange

namespace Graph

variable {ω : Type}

/-- No label is in two of the blobs. -/
def DisjointNodes (blobs : List (Subgraph ω)) : Prop :=
  blobs.Pairwise fun a b => ∀ l ∈ a.nodes, l ∉ b.nodes

/-- A label stands in one of some disjoint blobs only. -/
theorem eq_of_mem_blobs {blobs : List (Subgraph ω)} (h : DisjointNodes blobs) {i j : Nat}
    {a b : Subgraph ω} (hi : blobs[i]? = some a) (hj : blobs[j]? = some b) {l : String}
    (ha : l ∈ a.nodes) (hb : l ∈ b.nodes) : i = j := by
  obtain ⟨hi', rfl⟩ := List.getElem?_eq_some_iff.mp hi
  obtain ⟨hj', rfl⟩ := List.getElem?_eq_some_iff.mp hj
  have hapart := List.pairwise_iff_getElem.mp h
  rcases Nat.lt_trichotomy i j with hlt | heq | hgt
  · exact absurd hb (hapart i j hi' hj' hlt l ha)
  · exact heq
  · exact absurd ha (hapart j i hj' hi' hgt l hb)

variable [Weight ω]

/-- What is found later is searched among the labels that were left. -/
theorem disjoint_searchAmong (edges : List (Edge ω)) (minDensity : ω) {fuel : Nat} :
    ∀ {ls : List String}, (searchAmong edges minDensity fuel ls).Pairwise fun f f' =>
      ∀ l ∈ f.1, l ∉ f'.1 := by
  induction fuel with
  | zero => exact .nil
  | succ fuel ih =>
    intro ls
    rw [searchAmong]
    split
    next => exact .nil
    next =>
      dsimp only
      split
      next => exact .nil
      next =>
        refine .cons (fun found hfound l hl hl' => ?_) ih
        have hleft := (List.mem_filter.mp (mem_of_mem_searchAmong hfound l hl')).2
        exact of_decide_eq_true hleft hl

/-- The blobs of a component have no label in common. -/
theorem disjoint_blobsAmong (edges : List (Edge ω)) (minDensity : ω) (c : LabelSet) :
    DisjointNodes (blobsAmong edges minDensity c) := by
  refine List.pairwise_map.mpr ((disjoint_searchAmong edges minDensity).imp fun {f f'} hff => ?_)
  intro l hl hl'
  exact hff l (mem_ofList_iff.mp hl) (mem_ofList_iff.mp hl')

variable {g : Graph ω} {minDensity : ω}

/-- The search of a graph with distinct labels succeeds, and no label is in two of its blobs. -/
theorem exists_findBlobs_disjoint (hg : g.Distinct) (hd : Weight.isNonnegative minDensity = true) :
    ∃ blobs, g.findBlobs minDensity = .ok blobs ∧ DisjointNodes blobs := by
  rcases Nat.lt_or_ge maxSearchedNodes g.nodes.length with hlarge | hsmall
  · refine ⟨_, findBlobs_of_large hd hlarge, ?_⟩
    refine List.pairwise_map.mpr ((List.pairwise_map.mp hg).imp fun {n n'} hne l hl hl' => ?_)
    rw [mem_ofList_iff, List.mem_singleton] at hl hl'
    exact hne (hl.symm.trans hl')
  · refine ⟨_, findBlobs_eq_flatMap hg hd hsmall, List.pairwise_flatMap.mpr ⟨fun c _ => ?_, ?_⟩⟩
    · exact disjoint_blobsAmong g.edges minDensity c
    · refine (components_disjoint hg).imp fun {c c'} hcc a ha b hb l hl hl' => ?_
      exact hcc l (mem_of_mem_blobsAmong ha l hl) (mem_of_mem_blobsAmong hb l hl')

/-- With sound thresholds the search for an anti-blob succeeds. -/
theorem exists_findAntiBlob (g : Graph ω) {maxCoupling : ω} {minSize : Nat}
    (hmax : Weight.isNonnegative maxCoupling = true) (hmin : minSize ≠ 0) :
    ∃ antiBlob, g.findAntiBlob maxCoupling minSize = .ok antiBlob := by
  unfold findAntiBlob
  rw [hmax, if_neg (by simp), if_neg hmin]
  dsimp only
  split
  next => exact ⟨_, rfl⟩
  next => exact ⟨_, rfl⟩

end Graph

end Cochange
