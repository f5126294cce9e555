import Cochange.Proofs.Density.AntiBlob
import Cochange.Proofs.Graph.Merging

/-!
# Rearranged graphs

The nodes and the edges of a graph are lists, and every edge has a source and a target. The order of
the lists and the direction of the edges say nothing about the graph, but the searches meet them:
positions are merged in the order of the edges, and adjacency lists are filled in it, so that the
heap of the peeling goes through other states.

The answers are the same in exact arithmetic (`answers_of_rearranged`). What they depend on are the
labels, which two of them some edge joins, and sums over all edges that are blind to direction; no
rearrangement changes these (`Rearranged.exists_edge_iff`, `Rearranged.sum_eq`). Of the peeling it
was shown that it leads to the first of the densest sets on a way that only the couplings determine,
so two lists of links with the same couplings have the same answer (`densestWithin_congr`).
-/

namespace Cochange

/-- An edge in the other direction. -/
def Edge.turned {ω : Type} (e : Edge ω) : Edge ω :=
  { e with source := e.target, target := e.source }

/-- It joins what the edge joins. -/
theorem Edge.turned_joins {ω : Type} (e : Edge ω) (u v : String) :
    ((e.turned.source = u ∧ e.turned.target = v) ∨ (e.turned.source = v ∧ e.turned.target = u)) ↔
      ((e.source = u ∧ e.target = v) ∨ (e.source = v ∧ e.target = u)) :=
  or_comm.trans (or_congr and_comm and_comm)

/-- Only one of the sets on the way is the first of the densest. -/
theorem Leads.unique {W : Nat → Nat → Rat} {members : List Nat} {k j j' : Nat}
    {best best' : Rat × List Nat} (hl : Leads W members k j best)
    (hl' : Leads W members k j' best') : j = j' := by
  have hvalue : best.1 = best'.1 :=
    le_antisymm (hl.value.trans_le (hl'.max j hl.le)) (hl'.value.trans_le (hl.max j' hl'.le))
  rcases Nat.lt_trichotomy j j' with hlt | heq | hgt
  · exact absurd (hl'.first j hlt) (not_lt.mpr (hvalue.symm.trans hl.value).le)
  · exact heq
  · exact absurd (hl.first j' hgt) (not_lt.mpr (hvalue.trans hl'.value).le)

namespace Graph

/-! ## Rearranging -/

/-- Whether one graph is the other with its nodes and its edges in another order, and some of the
edges turned around. -/
structure Rearranged {ω : Type} (g g' : Graph ω) : Prop where
  nodes : g.nodes.Perm g'.nodes
  edges : ∃ mid, g.edges.Perm mid ∧ List.Forall₂ (fun e e' => e' = e ∨ e' = e.turned) mid g'.edges

namespace Rearranged

section Edges

variable {ω : Type} {g g' : Graph ω}

/-- Rearranging a graph keeps its labels. -/
theorem mem_labels_iff (h : Rearranged g g') (l : String) : l ∈ g'.labels ↔ l ∈ g.labels := by
  rw [mem_labels, mem_labels]
  exact exists_congr fun n => and_congr_left' h.nodes.mem_iff.symm

theorem labels_eq (h : Rearranged g g') : g'.labels = g.labels :=
  Std.ExtTreeSet.ext_mem h.mem_labels_iff

/-- Rearranging a graph repeats no label. -/
theorem distinct (h : Rearranged g g') (hg : g.Distinct) : g'.Distinct :=
  (h.nodes.map _).nodup_iff.mp hg

/-- What is blind to direction is the same for the edges of both graphs, up to their order. -/
theorem map_perm {α : Type} (h : Rearranged g g') {f : Edge ω → α} (hf : ∀ e, f e.turned = f e) :
    (g'.edges.map f).Perm (g.edges.map f) := by
  obtain ⟨mid, hperm, hturned⟩ := h.edges
  refine List.Perm.trans (List.Perm.of_eq ?_) (hperm.map f).symm
  generalize g'.edges = es at hturned
  clear hperm
  induction hturned with
  | nil => rfl
  | cons he _ ih =>
    rw [List.map_cons, List.map_cons, ih]
    refine congrArg (· :: _) ?_
    rcases he with rfl | rfl
    · rfl
    · exact hf _

/-- Both graphs have edges with a property that is blind to direction, or none has. -/
theorem exists_edge_iff (h : Rearranged g g') {P : Edge ω → Prop} (hP : ∀ e, P e.turned ↔ P e) :
    (∃ e ∈ g'.edges, P e) ↔ ∃ e ∈ g.edges, P e := by
  have hmem : True ∈ g'.edges.map P ↔ True ∈ g.edges.map P :=
    (h.map_perm fun e => propext (hP e)).mem_iff
  simpa only [List.mem_map, eq_iff_iff, iff_true] using hmem

/-- A sum over the edges of what is blind to direction is the same. -/
theorem sum_eq (h : Rearranged g g') {f : Edge ω → Rat} (hf : ∀ e, f e.turned = f e) :
    (g'.edges.map f).sum = (g.edges.map f).sum :=
  (h.map_perm hf).sum_eq

/-- Rearranging a graph keeps which labels are adjacent. -/
theorem adjacent_iff (h : Rearranged g g') (u v : String) : g'.Adjacent u v ↔ g.Adjacent u v := by
  refine and_congr (h.mem_labels_iff u) (and_congr (h.mem_labels_iff v) ?_)
  exact h.exists_edge_iff fun e => e.turned_joins u v

/-- A rearranged graph has the same components in the same order. -/
theorem components_eq (h : Rearranged g g') (hg : g.Distinct) : g'.components = g.components :=
  components_eq_of_adjacent hg (h.distinct hg) h.labels_eq fun u v _ => h.adjacent_iff u v

end Edges

end Rearranged

/-! ## Searches with the same couplings -/

section Search

variable {count : Nat} {links links' : List (Link Rat)}
variable (hlinks : ∀ l ∈ links, l.source ≠ l.target) (hlinks' : ∀ l ∈ links', l.source ≠ l.target)
variable (hsame : coupled links' = coupled links)

include hlinks hlinks' hsame

/-- The densest set among some members depends on their couplings alone. -/
theorem densestWithin_congr {members : List Nat} (hsorted : members.Pairwise (· < ·))
    (hlt : ∀ m ∈ members, m < count) (hne : members ≠ []) :
    densestWithin count links' members = densestWithin count links members := by
  obtain ⟨j, hj⟩ := densest_leads hlinks hsorted hlt hne
  obtain ⟨j', hj'⟩ := densest_leads hlinks' hsorted hlt hne
  rw [hsame] at hj'
  obtain rfl := hj.unique hj'
  rw [densestWithin_eq rfl, densestWithin_eq rfl, filterMap_drops hj.drops,
    filterMap_drops hj'.drops, hj.value, hj'.value]

/-- So do all sets that are taken out one after the other. -/
theorem extract_congr (minDensity : Rat) {fuel : Nat} : ∀ {members : List Nat},
    members.Pairwise (· < ·) → (∀ m ∈ members, m < count) →
      extract count links' minDensity fuel members =
        extract count links minDensity fuel members := by
  induction fuel with
  | zero => exact fun _ _ => rfl
  | succ fuel ih =>
    intro members hsorted hlt
    rw [extract, extract]
    by_cases he : members.isEmpty = true
    · rw [if_pos he, if_pos he]
    · have hne : members ≠ [] := fun h => he (List.isEmpty_iff.mpr h)
      rw [if_neg he, if_neg he, densestWithin_congr hlinks hlinks' hsame hsorted hlt hne]
      dsimp only
      rw [ih (hsorted.filter _) fun m hm => hlt m (List.mem_of_mem_filter hm)]

end Search

/-! ## Couplings -/

section Couplings

variable {g g' : Graph Rat}

/-- The couplings of the links are those of the edges they are made from. -/
theorem coupled_filterMap (numbers : Std.ExtTreeMap String Nat) (es : List (Edge Rat)) (a b : Nat) :
    coupled (es.filterMap (linkOf? numbers)) a b =
      (es.map fun e => coupled (linkOf? numbers e).toList a b).sum := by
  induction es with
  | nil => rfl
  | cons e es ih =>
    rw [List.filterMap_cons, List.map_cons, List.sum_cons, ← ih]
    cases linkOf? numbers e with
    | none => exact (zero_add _).symm
    | some l =>
      rw [coupled_cons]
      show _ = coupled [l] a b + _
      rw [coupled_cons]
      exact congrArg (· + _) (add_zero _).symm

/-- The link of an edge couples the same numbers in both directions. -/
theorem coupled_linkOf?_turned (numbers : Std.ExtTreeMap String Nat) (e : Edge Rat) (a b : Nat) :
    coupled (linkOf? numbers e.turned).toList a b = coupled (linkOf? numbers e).toList a b := by
  unfold linkOf? Edge.turned
  dsimp only
  cases numbers[e.source]? with
  | none => cases numbers[e.target]? <;> rfl
  | some x =>
    cases numbers[e.target]? with
    | none => rfl
    | some y =>
      dsimp only
      by_cases hxy : x = y
      · rw [if_pos hxy, if_pos hxy.symm]
      · rw [if_neg hxy, if_neg (Ne.symm hxy), Option.toList_some, Option.toList_some, coupled_cons,
          coupled_cons]
        refine congrArg (· + _) (if_congr ?_ rfl rfl)
        exact or_comm.trans (or_congr and_comm and_comm)

/-- In a rearranged graph numbers are coupled as before. -/
theorem Rearranged.coupled_links (h : Rearranged g g') (numbers : Std.ExtTreeMap String Nat) :
    coupled (g'.links numbers) = coupled (g.links numbers) := by
  funext a b
  rw [links, links, coupled_filterMap, coupled_filterMap]
  exact h.sum_eq fun e => coupled_linkOf?_turned numbers e a b

/-- An edge couples its labels whichever end is its source. -/
theorem couples_turned (e : Edge Rat) (u v : String) : couples e.turned u v = couples e u v :=
  if_congr (and_congr_right fun _ => e.turned_joins u v) rfl rfl

/-- In a rearranged graph labels are joined as before. -/
theorem Rearranged.joined_eq (h : Rearranged g g') : g'.joined = g.joined := by
  funext u v
  rw [joined_eq_sum, joined_eq_sum]
  exact h.sum_eq fun e => couples_turned e u v

/-- A rearranged graph has the same degrees. -/
theorem Rearranged.degrees_eq (h : Rearranged g g') : g'.degrees = g.degrees := by
  refine Std.ExtTreeMap.ext_getElem? fun l => ?_
  rw [getElem?_degrees, getElem?_degrees, h.joined_eq, nodeSet, nodeSet, h.labels_eq]

/-! ## Blobs and the anti-blob -/

/-- In a rearranged graph the same blobs are found in the same order. -/
theorem Rearranged.findBlobs_eq (h : Rearranged g g') (hg : g.Distinct)
    (hsize : g.nodes.length ≤ maxSearchedNodes) (minDensity : Rat) :
    g'.findBlobs minDensity = g.findBlobs minDensity := by
  by_cases hd : Weight.isNonnegative minDensity = true
  · have hnumbers : g'.numbers = g.numbers := by
      unfold numbers
      rw [h.labels_eq]
    rw [findBlobs_components hd (h.nodes.length_eq ▸ hsize), findBlobs_components hd hsize,
      h.components_eq hg, h.labels_eq, hnumbers]
    refine congrArg _ (List.flatMap_congr fun c _ => congrArg (List.map _) ?_)
    exact extract_congr (g.links_ne _) (g'.links_ne _) (h.coupled_links _) minDensity
      (g.membersOf_sorted c) fun m hm => lt_of_mem_membersOf hm
  · rw [findBlobs, findBlobs, if_pos (by simpa using hd), if_pos (by simpa using hd)]

/-- The edges that touch a set of labels have the same sum in a rearranged graph. -/
theorem Rearranged.touched_eq (h : Rearranged g g') : g'.touched = g.touched := by
  funext ls
  have hsum : ((g'.touching ls).map (·.coupling)).sum = ((g.touching ls).map (·.coupling)).sum := by
    rw [touching, touching, sum_filter_coupling, sum_filter_coupling]
    refine h.sum_eq fun e => ?_
    rw [Edge.turned, Bool.or_comm]
    simp only [ne_comm]
  rw [touched, touched, Weight.rat_sum, Weight.rat_sum, hsum]

/-- In a rearranged graph the same anti-blob is found. -/
theorem Rearranged.findAntiBlob_eq (h : Rearranged g g') (maxCoupling : Rat) (minSize : Nat) :
    g'.findAntiBlob maxCoupling minSize = g.findAntiBlob maxCoupling minSize := by
  rw [Graph.findAntiBlob_eq, Graph.findAntiBlob_eq, h.degrees_eq, h.touched_eq]

end Couplings

/-- A graph with distinct labels that is not too large has the same components in the same order,
the same degrees, the same blobs in the same order and the same anti-blob, with all thresholds,
however its nodes and edges are ordered and whichever end of an edge is its source. -/
theorem answers_of_rearranged (g g' : Graph Rat) (hg : g.Distinct)
    (hsize : g.nodes.length ≤ maxSearchedNodes) (h : Rearranged g g') :
    g'.components = g.components ∧
    g'.degrees = g.degrees ∧
    (∀ minDensity, g'.findBlobs minDensity = g.findBlobs minDensity) ∧
    ∀ maxCoupling minSize,
      g'.findAntiBlob maxCoupling minSize = g.findAntiBlob maxCoupling minSize :=
  ⟨h.components_eq hg, h.degrees_eq, h.findBlobs_eq hg hsize, h.findAntiBlob_eq⟩

/-- The triangle with its nodes and edges in another order, and three of the edges turned. -/
def turnedTriangle : Graph Rat where
  label := "triangle"
  nodes := [⟨"b", 1⟩, ⟨"e", 1⟩, ⟨"a", 1⟩, ⟨"d", 1⟩, ⟨"c", 1⟩]
  edges :=
    [⟨"d", "d", 1, 1⟩, ⟨"c", "b", 1, 1⟩, ⟨"a", "c", 1, 1⟩, ⟨"d", "e", 1, 1 / 2⟩, ⟨"b", "a", 1, 1⟩,
      ⟨"c", "d", 1, 1 / 10⟩]

theorem rearranged_triangleGraph : Rearranged triangleGraph turnedTriangle where
  nodes := by decide
  edges := by
    refine ⟨[⟨"d", "d", 1, 1⟩, ⟨"b", "c", 1, 1⟩, ⟨"a", "c", 1, 1⟩, ⟨"e", "d", 1, 1 / 2⟩,
      ⟨"a", "b", 1, 1⟩, ⟨"c", "d", 1, 1 / 10⟩], by decide +kernel, ?_⟩
    exact .cons (.inl rfl) (.cons (.inr rfl) (.cons (.inl rfl) (.cons (.inr rfl)
      (.cons (.inr rfl) (.cons (.inl rfl) .nil)))))

/-- The three strongly coupled nodes are the blob of both, and the other two the anti-blob. -/
theorem answers_of_rearranged_triangle :
    ∃ blobs a, triangleGraph.findBlobs 1 = .ok blobs ∧ turnedTriangle.findBlobs 1 = .ok blobs ∧
      blobs.map (fun b => (b.nodes.toList, b.density)) = [(["a", "b", "c"], 2)] ∧
      triangleGraph.findAntiBlob (3 / 5) 2 = .ok (some a) ∧
      turnedTriangle.findAntiBlob (3 / 5) 2 = .ok (some a) ∧
      (a.nodes.toList, a.density) = (["d", "e"], 3 / 10) := by
  obtain ⟨-, -, hblobs, hanti⟩ := answers_of_rearranged triangleGraph turnedTriangle (by decide)
    (by decide) rearranged_triangleGraph
  have hseen : ((triangleGraph.findBlobs 1).toOption.map fun blobs =>
      blobs.map fun b => (b.nodes.toList, b.density)) = some [(["a", "b", "c"], 2)] := by
    decide +kernel
  have hseen' : ((triangleGraph.findAntiBlob (3 / 5) 2).toOption.getD none).map (fun a =>
      (a.nodes.toList, a.density)) = some (["d", "e"], 3 / 10) := by decide +kernel
  obtain ⟨a, ha, hy⟩ := exists_found hseen'
  cases hfound : triangleGraph.findBlobs 1 with
  | error why =>
    rw [hfound] at hseen
    cases hseen
  | ok blobs =>
    rw [hfound] at hseen
    exact ⟨blobs, a, rfl, (hblobs 1).trans hfound, Option.some.inj hseen, ha,
      (hanti (3 / 5) 2).trans ha, hy⟩

end Graph

end Cochange
