import Cochange.Proofs.Density.Blobs
import Cochange.Proofs.Graph.Induced

/-!
# How blobs hold together

The search goes through each component on its own, so all labels of a blob are connected in the
graph. Within the blob they need not be: what connects two dense parts may be taken away before
them, and of two sets that are equally dense the larger is the answer
(`bridgedTriangles_blob_not_connected`).

But no label of a blob stands by itself. Every part of the blob to which no edge leads from the
rest has two labels at least and is at least half as dense as the blob (`findBlobs_cohesive`).
-/

namespace Cochange

namespace Graph

/-- Whether all nodes of a graph are connected. -/
def IsConnected {ω : Type} (g : Graph ω) : Prop :=
  ∀ u ∈ g.labels, ∀ v ∈ g.labels, g.Connected u v

/-! ## Parts of a blob -/

/-- Labels that no edge joins are not coupled. -/
theorem joined_eq_zero_of_not_adjacent {g : Graph Rat} {u v : String} (hu : u ∈ g.labels)
    (hv : v ∈ g.labels) (h : ¬g.Adjacent u v) : g.joined u v = 0 := by
  rw [joined_eq_sum]
  refine List.sum_eq_zero fun c hc => ?_
  obtain ⟨e, he, rfl⟩ := List.mem_map.mp hc
  exact if_neg fun hj => h ⟨hu, hv, e, he, hj.2⟩

/-- One label alone has the density zero. -/
theorem density_singleton (g : Graph Rat) (l : String) : density g.joined {l} = 0 := by
  rw [density, degreeSum, Finset.sum_singleton, degreeIn, Finset.sum_singleton, joined,
    if_pos rfl, zero_div]

/-- A part of a blob to which no edge leads is at least half as dense, and is not one label. -/
theorem IsBlob.part {g : Graph Rat} {minDensity : Rat} {c : LabelSet} {b : Subgraph Rat}
    (hb : g.IsBlob minDensity c b) (hd : 0 < minDensity) (hg : ∀ l ∈ b.nodes, l ∈ g.labels)
    {P : Finset String} (hP : P.Nonempty) (hPb : ∀ l ∈ P, l ∈ b.nodes)
    (hclosed : ∀ u ∈ P, ∀ v, (g.intersect b.nodes).Adjacent u v → v ∈ P) :
    2 ≤ P.card ∧ b.density / 2 ≤ density g.joined P := by
  have hsub : P ⊆ b.nodeSet := fun l hl => Subgraph.mem_nodeSet.mpr (hPb l hl)
  -- in the part every label has the degree that it has in the blob
  have hdegree : ∀ u ∈ P, degreeIn g.joined P u = degreeIn g.joined b.nodeSet u := by
    refine fun u hu => Finset.sum_subset hsub fun v hv hvP => ?_
    have hv' := Subgraph.mem_nodeSet.mp hv
    exact joined_eq_zero_of_not_adjacent (hg u (hPb u hu)) (hg v hv') fun hadj =>
      hvP (hclosed u hu v (adjacent_intersect (hPb u hu) hv' hadj))
  have hhalf : b.density / 2 ≤ density g.joined P :=
    le_density_of_le_degreeIn hP fun u hu => hdegree u hu ▸ hb.degree u (hPb u hu)
  refine ⟨?_, hhalf⟩
  by_contra hcard
  obtain ⟨l, rfl⟩ := Finset.card_eq_one.mp (show P.card = 1 by have := hP.card_pos; omega)
  rw [density_singleton] at hhalf
  linarith [hb.dense]

/-- All labels of a blob are connected in the graph; and a part of the blob to which no edge leads
from the rest has two labels at least, and at least half the density of the blob. -/
theorem findBlobs_cohesive (g : Graph Rat) (minDensity : Rat) (hg : g.Distinct)
    (hsize : g.nodes.length ≤ maxSearchedNodes) (hd : 0 < minDensity) :
    ∃ blobs, g.findBlobs minDensity = .ok blobs ∧ ∀ b ∈ blobs,
      (∀ u ∈ b.nodes, ∀ v ∈ b.nodes, g.Connected u v) ∧
      ∀ P : Finset String, P.Nonempty → (∀ l ∈ P, l ∈ b.nodes) →
        (∀ u ∈ P, ∀ v, (g.intersect b.nodes).Adjacent u v → v ∈ P) →
        2 ≤ P.card ∧ b.density / 2 ≤ density g.joined P := by
  refine ⟨_, findBlobs_eq hd.le hsize, fun b hb => ?_⟩
  obtain ⟨c, hc, hb⟩ := List.mem_flatMap.mp hb
  have hblob := (g.blobsWithin_spec minDensity c).2.1 b hb
  refine ⟨fun u hu v hv => ?_, fun P hP hPb hclosed => hblob.part hd
    (fun l hl => mem_labels_of_mem_component hg hc (hblob.mem l hl)) hP hPb hclosed⟩
  exact ((mem_component_iff hg hc (hblob.mem u hu)).mp (hblob.mem v hv)).2

/-- Two triangles that a weak node joins. -/
def bridgedTriangles : Graph Rat where
  label := "bridge"
  nodes := ["a", "b", "c", "w", "x", "y", "z"].map fun l => ⟨l, 4⟩
  edges :=
    [⟨"a", "b", 2, 1⟩, ⟨"a", "c", 2, 1⟩, ⟨"b", "c", 2, 1⟩, ⟨"c", "w", 2, 1 / 4⟩,
      ⟨"w", "x", 2, 1 / 4⟩, ⟨"x", "y", 2, 1⟩, ⟨"x", "z", 2, 1⟩, ⟨"y", "z", 2, 1⟩]

theorem bridgedTriangles_distinct : bridgedTriangles.Distinct := by decide

/-- The labels of both triangles. -/
def triangleLabels : LabelSet :=
  Std.ExtTreeSet.ofList ["a", "b", "c", "x", "y", "z"]

/-- The search gives one blob, which holds both triangles without the node between them. -/
theorem bridgedTriangles_blobs :
    ∃ b, bridgedTriangles.findBlobs (3 / 2) = .ok [b] ∧ b.nodes = triangleLabels := by
  have hnodes : ((bridgedTriangles.findBlobs (3 / 2)).toOption.getD []).map (·.nodes.toList) =
      [["a", "b", "c", "x", "y", "z"]] := by decide +kernel
  rw [findBlobs_eq (by decide +kernel) (by decide)] at hnodes ⊢
  obtain ⟨b, hb, hlist⟩ := List.map_eq_singleton_iff.mp hnodes
  refine ⟨b, congrArg _ hb, ?_⟩
  rw [← ofList_toList b.nodes, hlist, triangleLabels]

/-- Among these labels no edge leads out of the first triangle. -/
theorem bridgedTriangles_adjacent {u v : String}
    (h : (bridgedTriangles.intersect triangleLabels).Adjacent u v) :
    u ∈ ["a", "b", "c"] ↔ v ∈ ["a", "b", "c"] := by
  have hedges : ∀ e ∈ (bridgedTriangles.intersect triangleLabels).edges,
      e.source ∈ ["a", "b", "c"] ↔ e.target ∈ ["a", "b", "c"] := by decide +kernel
  obtain ⟨-, -, e, he, ⟨rfl, rfl⟩ | ⟨rfl, rfl⟩⟩ := h
  · exact hedges e he
  · exact (hedges e he).symm

/-- Both triangles are one blob without the node between them. They are connected through it, and
one triangle alone has half the density. -/
theorem findBlobs_cohesive_bridge :
    ∃ b, bridgedTriangles.findBlobs (3 / 2) = .ok [b] ∧ bridgedTriangles.Connected "a" "x" ∧
      b.density / 2 ≤ density bridgedTriangles.joined {"a", "b", "c"} := by
  obtain ⟨blobs, hok, hall⟩ := findBlobs_cohesive bridgedTriangles (3 / 2) bridgedTriangles_distinct
    (by decide) (by decide +kernel)
  obtain ⟨b, hb, hnodes⟩ := bridgedTriangles_blobs
  rw [hok, Except.ok.injEq] at hb
  obtain ⟨hconnected, hparts⟩ := hall b (hb ▸ List.mem_singleton_self b)
  have hmem : ∀ l ∈ ["a", "b", "c", "x", "y", "z"], l ∈ b.nodes := by
    rw [hnodes]
    exact fun l hl => mem_ofList_iff.mpr hl
  have hiff : ∀ l : String, l ∈ ({"a", "b", "c"} : Finset String) ↔ l ∈ ["a", "b", "c"] := by simp
  have hax := hconnected "a" (hmem _ (by decide)) "x" (hmem _ (by decide))
  refine ⟨b, hok.trans (congrArg _ hb), hax,
    (hparts {"a", "b", "c"} (by decide) (fun l hl => hmem l ?_) fun u hu v huv => ?_).2⟩
  · exact List.mem_append_left ["x", "y", "z"] ((hiff l).mp hl)
  · rw [hnodes] at huv
    exact (hiff v).mpr ((bridgedTriangles_adjacent huv).mp ((hiff u).mp hu))

/-- The node between the triangles is taken away first; then both together are as dense as either,
and so they are one blob. -/
theorem bridgedTriangles_blob_not_connected :
    bridgedTriangles.Distinct ∧ (∀ e ∈ bridgedTriangles.edges, 0 ≤ e.coupling) ∧
    bridgedTriangles.nodes.length ≤ maxSearchedNodes ∧ (0 : Rat) < 3 / 2 ∧
    ∃ b, bridgedTriangles.findBlobs (3 / 2) = .ok [b] ∧
      ¬(bridgedTriangles.intersect b.nodes).IsConnected := by
  obtain ⟨b, hok, hnodes⟩ := bridgedTriangles_blobs
  refine ⟨bridgedTriangles_distinct, by decide +kernel, by decide, by decide +kernel, b, hok, ?_⟩
  rw [hnodes]
  intro hconnected
  have hlabels : ∀ l ∈ ["a", "x"], l ∈ (bridgedTriangles.intersect triangleLabels).labels := by
    decide +kernel
  have hax : Relation.EqvGen _ "a" "x" :=
    hconnected "a" (hlabels _ (by decide)) "x" (hlabels _ (by decide))
  -- edges lead from the first triangle to itself only
  have hsame : ∀ u v, (bridgedTriangles.intersect triangleLabels).Connected u v →
      (u ∈ ["a", "b", "c"] ↔ v ∈ ["a", "b", "c"]) := by
    intro u v huv
    induction huv with
    | rel u v h => exact bridgedTriangles_adjacent h
    | refl u => rfl
    | symm u v _ ih => exact ih.symm
    | trans u v w _ _ huv hvw => exact huv.trans hvw
  exact absurd ((hsame "a" "x" hax).mp (by decide)) (by decide)

end Graph

end Cochange
