import Cochange.Proofs.Density.Densest
import Cochange.Proofs.Density.Graphs
import Cochange.Proofs.Graph.Search

/-!
# What the search leaves

The search in a component ends when what is left of it has no set that is dense enough by the
search's own measure. No set of what is left is more than twice as dense as the one found there,
so none reaches twice the least density of a blob (`extract_leaves`). Sets of nodes of several
components are no denser, since components are not coupled (`blob_search_approximates`).

All couplings are zero or more here.
-/

namespace Cochange

namespace Graph

section Extract

variable {count : Nat} {links : List (Link Rat)} {minDensity : Rat}

/-- What is left without the set found is smaller, and has its members in order. -/
theorem length_without_found (hlinks : ∀ l ∈ links, l.source ≠ l.target) {members : List Nat}
    (hsorted : members.Pairwise (· < ·)) (hlt : ∀ m ∈ members, m < count) (hne : members ≠ []) :
    (members.filter fun m => m ∉ (densestWithin count links members).1).length <
      members.length := by
  obtain ⟨j, hj, hfound, -⟩ := densestWithin_spec hlinks hsorted hlt hne
  have hcard := List.toFinset_card_of_nodup (hsorted.imp ne_of_lt)
  obtain ⟨m, hm⟩ := remains_nonempty (W := coupled links) (show j < members.toFinset.card by omega)
  have hmem := mem_of_mem_remains hm
  rw [hfound]
  refine lt_of_le_of_ne (List.length_filter_le _ _) fun heq => ?_
  have hout := List.length_filter_eq_length_iff.mp heq m hmem
  refine of_decide_eq_true hout (List.mem_filter.mpr ⟨hmem, decide_eq_true hm⟩)

/-- Every set of members in none of the sets extracted is less than twice as dense as a blob has
to be. -/
theorem extract_leaves (hlinks : ∀ l ∈ links, l.source ≠ l.target)
    (hnonneg : ∀ l ∈ links, 0 ≤ l.coupling) {T : Finset Nat} (hTne : T.Nonempty) {fuel : Nat} :
    ∀ {members : List Nat}, members.Pairwise (· < ·) → (∀ m ∈ members, m < count) →
      members.length ≤ fuel → T ⊆ members.toFinset →
      (∀ found ∈ extract count links minDensity fuel members, ∀ v ∈ T, v ∉ found.1) →
      density (coupled links) T < 2 * minDensity := by
  induction fuel with
  | zero =>
    intro members _ _ hlen hT _
    rw [List.length_eq_zero_iff.mp (Nat.le_zero.mp hlen), List.toFinset_nil,
      Finset.subset_empty] at hT
    exact absurd hT hTne.ne_empty
  | succ fuel ih =>
    intro members hsorted hlt hlen hT hout
    have hne : members ≠ [] := by
      intro he
      rw [he, List.toFinset_nil, Finset.subset_empty] at hT
      exact hTne.ne_empty hT
    rw [extract, if_neg (by rw [List.isEmpty_iff]; exact hne)] at hout
    dsimp only at hout
    by_cases hd : Weight.lt (densestWithin count links members).2 minDensity = true
    · have hhalf := half_density_le_densestWithin hlinks hsorted hlt hnonneg hT hTne
      have hlow := Weight.rat_lt.mp hd
      linarith
    -- the set found is taken out, and what is left of the members is searched again
    · rw [if_neg hd] at hout
      have hless := length_without_found hlinks hsorted hlt hne
      refine ih (hsorted.filter _) (fun m hm => hlt m (List.mem_of_mem_filter hm)) (by omega)
        (fun v hv => ?_) fun found hfound => hout found (List.mem_cons_of_mem _ hfound)
      rw [List.mem_toFinset, List.mem_filter, decide_eq_true_eq]
      exact ⟨List.mem_toFinset.mp (hT hv), hout _ List.mem_cons_self v hv⟩

end Extract

section Blobs

variable {g : Graph Rat} {minDensity : Rat}

/-- A set of nodes of one component in none of its blobs is less than twice as dense as a blob
has to be. -/
theorem blobsWithin_leaves (hnonneg : ∀ e ∈ g.edges, 0 ≤ e.coupling) {c : LabelSet}
    {T : Finset String} (hTne : T.Nonempty) (hTg : ∀ l ∈ T, l ∈ g.labels) (hTc : ∀ l ∈ T, l ∈ c)
    (hout : ∀ b ∈ blobsWithin g.labels.toList.toArray g.numbers (g.links g.numbers) minDensity c,
      ∀ l ∈ T, l ∉ b.nodes) :
    density g.joined T < 2 * minDensity := by
  have hT : T.image g.number ⊆ (membersOf g.numbers c).toFinset := by
    intro m hm
    obtain ⟨l, hl, rfl⟩ := Finset.mem_image.mp hm
    exact List.mem_toFinset.mpr (mem_membersOf.mpr ⟨l, hTc l hl, numbers_eq_number (hTg l hl)⟩)
  rw [← density_numbers hTg]
  refine extract_leaves (g.links_ne g.numbers) (links_nonneg hnonneg g.numbers)
    (hTne.image g.number) (g.membersOf_sorted c) (fun m hm => lt_of_mem_membersOf hm)
    (Nat.le_refl _) hT fun found hfound m hm hin => ?_
  -- the label of a member that was found is in the blob
  obtain ⟨l, hl, rfl⟩ := Finset.mem_image.mp hm
  refine hout _ (List.mem_map_of_mem hfound) l hl ?_
  rw [Std.ExtTreeSet.mem_ofList, List.contains_iff_mem, List.mem_filterMap]
  refine ⟨g.number l, hin, ?_⟩
  rw [List.getElem?_toArray]
  exact numbers_eq_some.mp (numbers_eq_number (hTg l hl))

/-- Below the limit the components are searched one after the other. -/
theorem findBlobs_eq (hd : 0 ≤ minDensity) (hsize : g.nodes.length ≤ maxSearchedNodes) :
    g.findBlobs minDensity =
      .ok (g.components.flatMap
        (blobsWithin g.labels.toList.toArray g.numbers (g.links g.numbers) minDensity)) :=
  findBlobs_components (decide_eq_true hd) hsize

end Blobs

/-- The set found among some members is at least half as dense as any other; and the blobs found
in a graph leave no set of nodes that is twice as dense as a blob has to be. -/
theorem blob_search_approximates :
    (∀ (count : Nat) (links : List (Link Rat)) (members : List Nat),
      (∀ l ∈ links, l.source ≠ l.target) → (∀ l ∈ links, 0 ≤ l.coupling) →
      members.Pairwise (· < ·) → (∀ m ∈ members, m < count) → members ≠ [] →
      ∀ T ⊆ members.toFinset, T.Nonempty →
        density (coupled links) T / 2 ≤ (densestWithin count links members).2) ∧
    ∀ (g : Graph Rat) (minDensity : Rat),
      g.Distinct → (∀ e ∈ g.edges, 0 ≤ e.coupling) → g.nodes.length ≤ maxSearchedNodes →
      0 ≤ minDensity →
      ∃ blobs, g.findBlobs minDensity = .ok blobs ∧
        ∀ T : Finset String, T.Nonempty → (∀ l ∈ T, l ∈ g.labels) →
          (∀ b ∈ blobs, ∀ l ∈ T, l ∉ b.nodes) → density g.joined T < 2 * minDensity := by
  constructor
  · intro count links members hlinks hnonneg hsorted hlt _ T hT hTne
    exact half_density_le_densestWithin hlinks hsorted hlt hnonneg hT hTne
  · intro g minDensity hg hnonneg hsize hd
    refine ⟨_, findBlobs_eq hd hsize, fun T hTne hTg hout => ?_⟩
    -- taken apart by components, each part is what one search left
    have hapart : ∀ u ∈ T, ∀ v ∈ T, g.classOf u ≠ g.classOf v → g.joined u v = 0 :=
      fun u hu v hv hne => joined_eq_zero (hTg u hu) (hTg v hv) hne
    refine density_lt_of_parts hapart hTne fun p hp => ?_
    obtain ⟨v, hv, hvp⟩ := Finset.mem_image.mp hp
    obtain ⟨c, hc, hvc⟩ := exists_component hg (hTg v hv)
    obtain ⟨r, hr⟩ := mem_component hg hc
    have hpr : p = some r := hvp.symm.trans ((hr v).mp hvc)
    refine blobsWithin_leaves hnonneg ⟨v, Finset.mem_filter.mpr ⟨hv, hvp⟩⟩
      (fun l hl => hTg l (Finset.mem_of_mem_filter l hl)) (fun l hl => ?_)
      fun b hb l hl => hout b (List.mem_flatMap.mpr ⟨c, hc, hb⟩) l
        (Finset.mem_of_mem_filter l hl)
    exact (hr l).mpr ((Finset.mem_filter.mp hl).2.trans hpr)

/-- Three nodes that are strongly coupled, and two weakly coupled ones. -/
def triangleGraph : Graph Rat where
  label := "triangle"
  nodes := [⟨"c", 1⟩, ⟨"d", 1⟩, ⟨"a", 1⟩, ⟨"b", 1⟩, ⟨"e", 1⟩]
  edges :=
    [⟨"a", "b", 1, 1⟩, ⟨"b", "c", 1, 1⟩, ⟨"a", "c", 1, 1⟩, ⟨"c", "d", 1, 1 / 10⟩,
      ⟨"e", "d", 1, 1 / 2⟩, ⟨"d", "d", 1, 1⟩]

/-- Two joined nodes are within twice what is found, and the pair that is left over is not dense
enough. -/
theorem blob_search_approximates_triangle :
    density (coupled twinLinks) {1, 2} / 2 ≤ (densestWithin 6 twinLinks [1, 2, 3, 4]).2 ∧
      ∃ blobs, triangleGraph.findBlobs 1 = .ok blobs ∧
        blobs.map (·.nodes.toList) = [["a", "b", "c"]] ∧
        density triangleGraph.joined {"d", "e"} < 2 * 1 := by
  refine ⟨blob_search_approximates.1 6 twinLinks [1, 2, 3, 4] (by decide) (by decide +kernel)
    (by decide) (by decide) (by decide) {1, 2} (by decide) (by decide), ?_⟩
  have hdistinct : triangleGraph.Distinct := by decide
  obtain ⟨blobs, hb, hleft⟩ := blob_search_approximates.2 triangleGraph 1 hdistinct
    (by decide +kernel) (by decide) (by decide)
  have hnodes : ((triangleGraph.findBlobs 1).toOption.getD []).map (·.nodes.toList) =
      [["a", "b", "c"]] := by decide +kernel
  rw [hb] at hnodes
  refine ⟨blobs, hb, hnodes, hleft {"d", "e"} (by decide) (fun l hl => ?_) fun b hmem l hl => ?_⟩
  · have hall : ∀ l ∈ ["d", "e"], l ∈ triangleGraph.labels := by decide +kernel
    exact hall l (by simpa using hl)
  · have hlist : b.nodes.toList ∈ [["a", "b", "c"]] := hnodes ▸ List.mem_map_of_mem hmem
    rw [← Std.ExtTreeSet.mem_toList, List.mem_singleton.mp hlist]
    rcases Finset.mem_insert.mp hl with rfl | hl
    · decide
    · rw [Finset.mem_singleton.mp hl]
      decide

end Graph

end Cochange
