import Cochange.Proofs.Graph.Search

/-!
# Blobs of components

The blobs of a graph are those of its components, one component after the other: each component
gives what it gives as a graph of its own, the same sets in the same order with the same densities
(`findBlobs_local`). Nothing is asked of the weights, so the densities agree to the last bit where
sums are rounded.

A blob lies in one component. So the blobs in a component stay the same when anything is changed
elsewhere, as long as the component remains one and the graph does not become too large to be
searched.
-/

namespace Cochange

namespace Subgraph

/-- Whether all nodes are among some labels. -/
def liesIn {ω : Type} (b : Subgraph ω) (c : LabelSet) : Bool :=
  b.nodes.toList.all fun l => c.contains l

/-- A blob lies in a component if all its nodes do. -/
theorem liesIn_iff {ω : Type} {b : Subgraph ω} {c : LabelSet} :
    b.liesIn c = true ↔ ∀ l ∈ b.nodes, l ∈ c := by
  simp only [liesIn, List.all_eq_true, Std.ExtTreeSet.mem_toList, Std.ExtTreeSet.contains_iff_mem]

end Subgraph

namespace Graph

variable {ω : Type} [Weight ω] {g g' : Graph ω} {c : LabelSet} {minDensity : ω}

/-- The edges of a part are all that the search among its labels needs. -/
theorem blobsAmong_intersect (hc : ∀ l ∈ c, l ∈ g.labels) :
    blobsAmong (g.intersect c).edges minDensity c = blobsAmong g.edges minDensity c := by
  have hmem : ∀ l ∈ c.toList, (g.intersect c).labels.contains l = true := by
    intro l hl
    rw [Std.ExtTreeSet.mem_toList] at hl
    exact Std.ExtTreeSet.contains_iff_mem.mpr (mem_labels_intersect.mpr ⟨hc l hl, hl⟩)
  unfold blobsAmong
  rw [edges_intersect, searchAmong_filter minDensity (nodup_toList c)]
  intro e _ hs ht
  rw [hmem _ hs, hmem _ ht]
  rfl

/-- The blobs of a graph, component by component. -/
theorem findBlobs_eq_flatMap (hg : g.Distinct) (hd : Weight.isNonnegative minDensity = true)
    (hsize : g.nodes.length ≤ maxSearchedNodes) :
    g.findBlobs minDensity = .ok (g.components.flatMap (blobsAmong g.edges minDensity)) := by
  rw [findBlobs_components hd hsize]
  refine congrArg _ (List.flatMap_congr fun c hc => ?_)
  exact blobsWithin_eq fun l hl => mem_labels_of_mem_component hg hc hl

/-- As a graph of its own a component has the blobs that are found in it. -/
theorem findBlobs_component (hg : g.Distinct) (hd : Weight.isNonnegative minDensity = true)
    (hsize : g.nodes.length ≤ maxSearchedNodes) (hc : c ∈ g.components) :
    (g.intersect c).findBlobs minDensity = .ok (blobsAmong g.edges minDensity c) := by
  have hsize' := (length_nodes_intersect_le g c).trans hsize
  rw [findBlobs_eq_flatMap (hg.intersect c) hd hsize', components_intersect hg hc,
    List.flatMap_singleton, blobsAmong_intersect fun l hl => mem_labels_of_mem_component hg hc hl]

/-- The blobs found in a component do not lie in one that has no label of it. -/
theorem filter_liesIn_eq_nil {d : LabelSet} (edges : List (Edge ω)) (h : ∀ l ∈ d, l ∉ c) :
    (blobsAmong edges minDensity d).filter (·.liesIn c) = [] := by
  refine List.filter_eq_nil_iff.mpr fun b hb hin => ?_
  obtain ⟨l, hl⟩ := exists_mem_of_mem_blobsAmong hb
  exact h l (mem_of_mem_blobsAmong hb l hl) (Subgraph.liesIn_iff.mp hin l hl)

/-- The blobs that lie in a component are those that are found in it. -/
theorem filter_liesIn (hg : g.Distinct) (hc : c ∈ g.components) (edges : List (Edge ω)) :
    (g.components.flatMap (blobsAmong edges minDensity)).filter (·.liesIn c) =
      blobsAmong edges minDensity c := by
  have hdisjoint := components_disjoint hg
  obtain ⟨before, after, hsplit⟩ := List.append_of_mem hc
  rw [hsplit] at hdisjoint ⊢
  obtain ⟨-, hafter, hbefore⟩ := List.pairwise_append.mp hdisjoint
  have hall : ∀ b ∈ blobsAmong edges minDensity c, b.liesIn c = true :=
    fun b hb => Subgraph.liesIn_iff.mpr (mem_of_mem_blobsAmong hb)
  have hnone : ∀ ds : List LabelSet, (∀ d ∈ ds, ∀ l ∈ d, l ∉ c) →
      (ds.flatMap (blobsAmong edges minDensity)).filter (·.liesIn c) = [] := by
    intro ds hds
    rw [List.filter_flatMap]
    exact List.flatMap_eq_nil_iff.mpr fun d hd => filter_liesIn_eq_nil edges (hds d hd)
  rw [List.flatMap_append, List.flatMap_cons, List.filter_append, List.filter_append,
    hnone before fun d hd => hbefore d hd c List.mem_cons_self, List.filter_eq_self.mpr hall,
    hnone after fun d hd l hl hlc => List.rel_of_pairwise_cons hafter hd l hlc hl,
    List.nil_append, List.append_nil]

/-- The blobs of a graph are those of its components as graphs of their own, one component after
the other. The blobs that lie in a component are the same in every graph that is the same there. -/
theorem findBlobs_local (g : Graph ω) (minDensity : ω) (hg : g.Distinct)
    (hsize : g.nodes.length ≤ maxSearchedNodes) (hd : Weight.isNonnegative minDensity = true) :
    ∃ parts, List.Forall₂ (fun c blobs => (g.intersect c).findBlobs minDensity = .ok blobs)
        g.components parts ∧
      g.findBlobs minDensity = .ok parts.flatten ∧
      ∀ c ∈ g.components, ∀ g' : Graph ω, g'.Distinct → g'.nodes.length ≤ maxSearchedNodes →
        Untouched g g' c → ∃ blobs, g'.findBlobs minDensity = .ok blobs ∧
          blobs.filter (·.liesIn c) = parts.flatten.filter (·.liesIn c) := by
  refine ⟨g.components.map (blobsAmong g.edges minDensity), ?_, ?_, ?_⟩
  · rw [List.forall₂_map_right_iff]
    exact List.forall₂_same.mpr fun c hc => findBlobs_component hg hd hsize hc
  · rw [findBlobs_eq_flatMap hg hd hsize, List.flatMap_def]
  · intro c hc g' hg' hsize' huntouched
    have hc' := huntouched.mem_components hg hg' hc
    refine ⟨_, findBlobs_eq_flatMap hg' hd hsize', ?_⟩
    rw [← List.flatMap_def, filter_liesIn hg hc, filter_liesIn hg' hc',
      ← blobsAmong_intersect fun l hl => mem_labels_of_mem_component hg hc hl,
      ← blobsAmong_intersect fun l hl => mem_labels_of_mem_component hg' hc' hl,
      huntouched.edges]

/-- A triangle and a pair. -/
def triangleAndPair : Graph Rat where
  label := "g"
  nodes := ["a", "b", "c", "x", "y"].map fun l => ⟨l, 3⟩
  edges := [⟨"a", "b", 2, 1⟩, ⟨"x", "y", 2, 1⟩, ⟨"a", "c", 2, 1 / 2⟩, ⟨"b", "c", 2, 1⟩]

/-- The same triangle among other nodes, which changes its numbers. -/
def triangleElsewhere : Graph Rat where
  label := "h"
  nodes := ["Z", "a", "b", "b!", "c"].map fun l => ⟨l, 3⟩
  edges := [⟨"Z", "b!", 1, 7⟩, ⟨"a", "b", 2, 1⟩, ⟨"a", "c", 2, 1 / 2⟩, ⟨"b", "c", 2, 1⟩]

/-- The labels of the triangle, which are a component of both graphs. -/
def triangle : LabelSet :=
  Std.ExtTreeSet.ofList ["a", "b", "c"]

theorem triangle_mem_components : triangle ∈ triangleAndPair.components := by
  have halone : ((triangleAndPair.intersect triangle).components.map (·.toList)) =
      [["a", "b", "c"]] := by decide +kernel
  obtain ⟨c, hc, hlist⟩ := List.map_eq_singleton_iff.mp halone
  have htriangle : c = triangle := by rw [triangle, ← hlist, ofList_toList]
  have hdistinct : triangleAndPair.Distinct := by decide
  have huntouched : Untouched (triangleAndPair.intersect triangle) triangleAndPair triangle :=
    ⟨by decide +kernel, by decide +kernel, by decide +kernel⟩
  refine huntouched.mem_components (hdistinct.intersect _) hdistinct ?_
  rw [hc, htriangle]
  exact List.mem_cons_self

/-- The triangle is found with the same density whatever is elsewhere in the graph. -/
theorem findBlobs_local_triangle :
    ∃ blobs, triangleElsewhere.findBlobs (1 / 2) = .ok blobs ∧
      (blobs.filter (·.liesIn triangle)).map (fun b => (b.nodes.toList, b.density)) =
        [(["a", "b", "c"], 5 / 3)] := by
  have hdistinct : triangleAndPair.Distinct ∧ triangleElsewhere.Distinct := by decide
  have huntouched : Untouched triangleAndPair triangleElsewhere triangle :=
    ⟨by decide +kernel, by decide +kernel, by decide +kernel⟩
  have hd : Weight.isNonnegative (1 / 2 : Rat) = true := by decide +kernel
  obtain ⟨parts, -, hfound, hlocal⟩ :=
    findBlobs_local triangleAndPair (1 / 2) hdistinct.1 (by decide) hd
  obtain ⟨blobs, hok, hsame⟩ :=
    hlocal triangle triangle_mem_components triangleElsewhere hdistinct.2 (by decide) huntouched
  rw [findBlobs_eq_flatMap hdistinct.1 hd (by decide), Except.ok.injEq] at hfound
  rw [← hfound, filter_liesIn hdistinct.1 triangle_mem_components] at hsame
  refine ⟨blobs, hok, ?_⟩
  rw [hsame]
  decide +kernel

end Graph

end Cochange
