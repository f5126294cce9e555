import Cochange.Proofs.Density.AntiBlob

/-!
# Taking parts of a graph

A part of a graph is made by keeping the nodes whose labels satisfy a condition. Its edges are then
chosen by the labels of the nodes that are left, not by the condition. It comes to the same: the
edges of a part are those between two nodes of the graph whose labels both satisfy it
(`edges_filterNodes`), so that conditions one after the other are one condition
(`filterNodes_filterNodes`). From this follow the laws for taking the nodes with some labels and
those without (`intersect_intersect`, `without_without`, `intersect_without`).

What is with some labels and what is without them make up the graph, except for the edges that cross
from the ones to the others, and those that lead to no node (`splits_intersect_without`). The degree
of a node is shared out likewise (`getElem?_degrees_split`).
-/

namespace Cochange

namespace Graph

variable {ω : Type} {g g' : Graph ω} {l : String}

/-! ## Conditions on labels -/

theorem ext_parts (hlabel : g.label = g'.label) (hnodes : g.nodes = g'.nodes)
    (hedges : g.edges = g'.edges) : g = g' := by
  obtain ⟨label, nodes, edges⟩ := g
  obtain ⟨label', nodes', edges'⟩ := g'
  have h₁ : label = label' := hlabel
  have h₂ : nodes = nodes' := hnodes
  have h₃ : edges = edges' := hedges
  rw [h₁, h₂, h₃]

/-- An edge joins nodes that stay if it joins nodes and keeps both its ends. -/
theorem joins_filterNodes (g : Graph ω) (p : String → Bool) (e : Edge ω) :
    (g.filterNodes p).joins e = (g.joins e && (p e.source && p e.target)) := by
  rw [Bool.eq_iff_iff, Bool.and_eq_true, Bool.and_eq_true, joins_iff, joins_iff]
  unfold Joins
  rw [mem_labels_filterNodes, mem_labels_filterNodes]
  exact and_and_and_comm

/-- The edges of a part are those between two nodes whose labels satisfy the condition. -/
theorem edges_filterNodes (g : Graph ω) (p : String → Bool) :
    (g.filterNodes p).edges = g.edges.filter fun e => g.joins e && (p e.source && p e.target) :=
  List.filter_congr fun e _ => joins_filterNodes g p e

/-- A part of a part is a part of the graph. -/
theorem filterNodes_filterNodes (g : Graph ω) (p q : String → Bool) :
    (g.filterNodes p).filterNodes q = g.filterNodes fun l => p l && q l := by
  refine ext_parts rfl ?_ ?_
  · show (g.nodes.filter _).filter _ = _
    rw [List.filter_filter]
    exact List.filter_congr fun n _ => Bool.and_comm _ _
  · rw [edges_filterNodes, edges_filterNodes, edges_filterNodes, List.filter_filter]
    refine List.filter_congr fun e _ => ?_
    rw [joins_filterNodes]
    cases g.joins e <;> cases p e.source <;> cases p e.target <;> simp

/-- Two parts of a graph have the part of the common labels in common. -/
theorem intersect_intersect (g : Graph ω) (A B : LabelSet) :
    (g.intersect A).intersect B = g.intersect (A ∩ B) :=
  (filterNodes_filterNodes g _ _).trans
    (congrArg g.filterNodes (funext fun _ => Std.ExtTreeSet.contains_inter.symm))

/-- Leaving out two sets of labels is leaving out all of them. -/
theorem without_without (g : Graph ω) (A B : LabelSet) :
    (g.without A).without B = g.without (A ∪ B) := by
  refine (filterNodes_filterNodes g _ _).trans (congrArg g.filterNodes (funext fun l => ?_))
  rw [Std.ExtTreeSet.contains_union, Bool.not_or]

/-- Taking a part and leaving labels out can be done in either order. -/
theorem intersect_without (g : Graph ω) (A B : LabelSet) :
    (g.intersect A).without B = (g.without B).intersect A := by
  refine (filterNodes_filterNodes g _ _).trans (Eq.trans ?_ (filterNodes_filterNodes g _ _).symm)
  exact congrArg g.filterNodes (funext fun l => Bool.and_comm _ _)

/-! ## Splitting a graph -/

/-- A list is made of two others, in the order of each. -/
inductive Interleaves {α : Type} : List α → List α → List α → Prop
  | nil : Interleaves [] [] []
  | left {a : α} {as bs cs : List α} : Interleaves as bs cs → Interleaves (a :: as) bs (a :: cs)
  | right {b : α} {as bs cs : List α} : Interleaves as bs cs → Interleaves as (b :: bs) (b :: cs)

/-- A list interleaves its elements with a property and those without it. -/
theorem interleaves_filter {α : Type} (p : α → Bool) (as : List α) :
    Interleaves (as.filter p) (as.filter fun a => !p a) as := by
  induction as with
  | nil => exact .nil
  | cons a as ih =>
    by_cases ha : p a = true
    · rw [List.filter_cons_of_pos ha, List.filter_cons_of_neg (by simp [ha])]
      exact .left ih
    · rw [List.filter_cons_of_neg ha, List.filter_cons_of_pos (by simp [ha])]
      exact .right ih

/-- The edges between a node with one of some labels and a node with none of them. -/
def crossing (g : Graph ω) (ls : LabelSet) : List (Edge ω) :=
  g.edges.filter fun e => g.joins e && (ls.contains e.source != ls.contains e.target)

/-- The edges with an end that is no node. -/
def dangling (g : Graph ω) : List (Edge ω) :=
  g.edges.filter fun e => !g.joins e

/-- Two graphs are what a graph has with some labels and without them: its nodes in their order, and
each of its edges as often as it has it, but for those that are in neither. -/
structure Splits (g : Graph ω) (ls : LabelSet) (inner outer : Graph ω) : Prop where
  nodes : Interleaves inner.nodes outer.nodes g.nodes
  inner_label : ∀ n ∈ inner.nodes, n.label ∈ ls
  outer_label : ∀ n ∈ outer.nodes, n.label ∉ ls
  inner_ends : ∀ e ∈ inner.edges, e.source ∈ ls ∧ e.target ∈ ls
  outer_ends : ∀ e ∈ outer.edges, e.source ∉ ls ∧ e.target ∉ ls
  edges : (inner.edges ++ outer.edges ++ g.crossing ls ++ g.dangling).Perm g.edges
  apart : [inner.edges, outer.edges, g.crossing ls, g.dangling].Pairwise List.Disjoint

/-- Where an edge is, when a graph is split. -/
inductive Place where
  | inner
  | outer
  | crossing
  | dangling
  deriving DecidableEq

/-- The place of an edge. -/
def place (g : Graph ω) (ls : LabelSet) (e : Edge ω) : Place :=
  if g.joins e then
    match ls.contains e.source, ls.contains e.target with
    | true, true => .inner
    | false, false => .outer
    | _, _ => .crossing
  else .dangling

/-- The edges at a place. -/
def edgesAt (g : Graph ω) (ls : LabelSet) (p : Place) : List (Edge ω) :=
  g.edges.filter (g.place ls · = p)

/-- Each of the four kinds of edges is found where its ends are. -/
theorem edges_at (g : Graph ω) (ls : LabelSet) :
    (g.intersect ls).edges = g.edgesAt ls .inner ∧ (g.without ls).edges = g.edgesAt ls .outer ∧
      g.crossing ls = g.edgesAt ls .crossing ∧ g.dangling = g.edgesAt ls .dangling := by
  have hfilter : ∀ {p q : Edge ω → Bool}, (∀ e, p e = q e) → g.edges.filter p = g.edges.filter q :=
    fun h => List.filter_congr fun e _ => h e
  refine ⟨(edges_filterNodes g _).trans (hfilter fun e => ?_),
    (edges_filterNodes g _).trans (hfilter fun e => ?_), hfilter fun e => ?_, hfilter fun e => ?_⟩
  all_goals
    unfold place
    cases g.joins e <;> cases ls.contains e.source <;> cases ls.contains e.target <;> rfl

/-- No edge is of two kinds. -/
theorem disjoint_edgesAt (g : Graph ω) (ls : LabelSet) {p q : Place} (h : p ≠ q) :
    (g.edgesAt ls p).Disjoint (g.edgesAt ls q) := by
  intro e hp hq
  have hp' := of_decide_eq_true (List.mem_filter.mp hp).2
  have hq' := of_decide_eq_true (List.mem_filter.mp hq).2
  exact h (hp'.symm.trans hq')

/-- What a graph has with some labels and without them splits it. -/
theorem splits_intersect_without (g : Graph ω) (ls : LabelSet) :
    g.Splits ls (g.intersect ls) (g.without ls) := by
  obtain ⟨hinner, houter, hcrossing, hdangling⟩ := g.edges_at ls
  have hout : ∀ l, (!ls.contains l) = true → l ∉ ls := by
    intro l hl
    rwa [Bool.not_eq_true', ← Bool.not_eq_true, Std.ExtTreeSet.contains_iff_mem] at hl
  refine ⟨interleaves_filter _ _, fun n hn => ?_, fun n hn => ?_, fun e he => ?_, fun e he => ?_,
    ?_, ?_⟩
  · exact Std.ExtTreeSet.contains_iff_mem.mp (List.mem_filter.mp hn).2
  · exact hout _ (List.mem_filter.mp hn).2
  · obtain ⟨-, hs, ht⟩ := mem_edges_intersect.mp he
    exact ⟨(mem_labels_intersect.mp hs).2, (mem_labels_intersect.mp ht).2⟩
  · have hends := (List.mem_filter.mp (edges_filterNodes g _ ▸ he)).2
    rw [Bool.and_eq_true, Bool.and_eq_true] at hends
    exact ⟨hout _ hends.2.1, hout _ hends.2.2⟩
  · rw [hinner, houter, hcrossing, hdangling]
    have hplaces : [Place.inner, .outer, .crossing, .dangling].Nodup := by decide
    have hplace : ∀ e ∈ g.edges, g.place ls e ∈ [Place.inner, .outer, .crossing, .dangling] := by
      intro e _
      cases g.place ls e <;> decide
    simpa [edgesAt] using flatMap_filter_perm hplaces hplace
  · rw [hinner, houter, hcrossing, hdangling]
    have hplaces : [Place.inner, .outer, .crossing, .dangling].Pairwise (· ≠ ·) := by decide
    exact List.pairwise_map.mpr (hplaces.imp fun h => disjoint_edgesAt g ls h)

/-! ## Degrees -/

section Degrees

variable {g : Graph Rat} {ls : LabelSet}

/-- The coupling of the edges that cross at a label. -/
def crossingAt (g : Graph Rat) (ls : LabelSet) (l : String) : Rat :=
  (((g.crossing ls).filter fun e => e.source = l || e.target = l).map (·.coupling)).sum

/-- An edge crosses at a label if it leads from there to a node without the labels. -/
theorem crosses_at_iff (hl : l ∈ ls) (hnode : l ∈ g.labels) (e : Edge Rat) :
    ((e.source = l || e.target = l) &&
        (g.joins e && (ls.contains e.source != ls.contains e.target))) = true ↔
      (e.source = l ∧ e.target ∈ g.labels ∧ e.target ∉ ls) ∨
        (e.target = l ∧ e.source ∈ g.labels ∧ e.source ∉ ls) := by
  have hcontains : ls.contains l = true := Std.ExtTreeSet.contains_iff_mem.mpr hl
  rw [Bool.and_eq_true, Bool.and_eq_true, Bool.or_eq_true, decide_eq_true_eq, decide_eq_true_eq,
    joins_iff, bne_iff_ne, ← Std.ExtTreeSet.contains_iff_mem (k := e.source) (t := ls),
    ← Std.ExtTreeSet.contains_iff_mem (k := e.target) (t := ls), Bool.not_eq_true, Bool.not_eq_true]
  unfold Joins
  by_cases hs : e.source = l
  · simp only [hs, hcontains, hnode]
    cases ls.contains e.target <;> simp
  · by_cases ht : e.target = l
    · simp only [hs, ht, hcontains, hnode]
      cases ls.contains e.source <;> simp
    · simp [hs, ht]

/-- What a label is coupled with the nodes without some labels is what crosses there, if it has one
of them. -/
theorem degreeIn_outside (hl : l ∈ ls) (hnode : l ∈ g.labels) :
    degreeIn g.joined (g.nodeSet.filter (· ∉ ls)) l = g.crossingAt ls l := by
  rw [degreeIn_joined, crossingAt, crossing, List.filter_filter, sum_filter_coupling]
  refine congrArg List.sum (List.map_congr_left fun e _ => ?_)
  simp only [sum_couples_row, Finset.mem_filter, mem_nodeSet, crosses_at_iff hl hnode]
  by_cases hs : e.source = l ∧ e.target ∈ g.labels ∧ e.target ∉ ls
  · have hne : e.source ≠ e.target := fun h => hs.2.2 (h ▸ hs.1.symm ▸ hl)
    have ht : ¬(e.target = l ∧ e.source ∈ g.labels ∧ e.source ∉ ls) := fun h => h.2.2 (hs.1 ▸ hl)
    rw [if_pos hne, if_pos hs, if_neg ht, if_pos (Or.inl hs), add_zero]
  · by_cases ht : e.target = l ∧ e.source ∈ g.labels ∧ e.source ∉ ls
    · have hne : e.source ≠ e.target := fun h => ht.2.2 (h ▸ ht.1.symm ▸ hl)
      rw [if_pos hne, if_neg hs, if_pos ht, if_pos (Or.inr ht), zero_add]
    · rw [if_neg hs, if_neg ht, if_neg (not_or.mpr ⟨hs, ht⟩), add_zero, ite_self]

/-- The degree of a node with one of some labels is that among these nodes, and what crosses to the
others. -/
theorem getElem?_degrees_split (hl : l ∈ ls) (hnode : l ∈ g.labels) :
    ∃ d, (g.intersect ls).degrees[l]? = some d ∧ g.degrees[l]? = some (d + g.crossingAt ls l) := by
  have hpart : l ∈ (g.intersect ls).labels := mem_labels_intersect.mpr ⟨hnode, hl⟩
  have hset : (g.intersect ls).nodeSet = g.nodeSet.filter (· ∈ ls) := by
    ext v
    rw [mem_nodeSet, mem_labels_intersect, Finset.mem_filter, mem_nodeSet]
  refine ⟨_, (getElem?_degrees _ l).trans (if_pos hpart), ?_⟩
  rw [getElem?_degrees, if_pos hnode, ← degreeIn_outside hl hnode, hset]
  refine congrArg some ?_
  have hinside : degreeIn (g.intersect ls).joined (g.nodeSet.filter (· ∈ ls)) l =
      degreeIn g.joined (g.nodeSet.filter (· ∈ ls)) l := by
    refine Finset.sum_congr rfl fun v hv => joined_intersect hpart ?_
    rwa [← hset, mem_nodeSet] at hv
  rw [hinside]
  exact (Finset.sum_filter_add_sum_filter_not g.nodeSet (· ∈ ls) _).symm

end Degrees

/-- Taking the nodes with some labels and those without them obeys the laws of sets, and shares out
nodes, edges and degrees. -/
theorem parts_obey_set_laws :
    (∀ (g : Graph ω) (ls ls' : LabelSet),
      (g.intersect ls).intersect ls' = g.intersect (ls ∩ ls') ∧
        (g.without ls).without ls' = g.without (ls ∪ ls') ∧
        (g.intersect ls).without ls' = (g.without ls').intersect ls ∧
        g.Splits ls (g.intersect ls) (g.without ls)) ∧
    ∀ (g : Graph Rat) (ls : LabelSet), ∀ l ∈ ls, l ∈ g.labels →
      ∃ d, (g.intersect ls).degrees[l]? = some d ∧ g.degrees[l]? = some (d + g.crossingAt ls l) :=
  ⟨fun g ls ls' => ⟨intersect_intersect g ls ls', without_without g ls ls',
    intersect_without g ls ls', splits_intersect_without g ls⟩,
    fun _ _ _ => getElem?_degrees_split⟩

/-- A node with two edges to another, one to itself, one to a third and one to no node. -/
def tangledGraph : Graph Rat where
  label := "g"
  nodes := [⟨"a", 1⟩, ⟨"b", 1⟩, ⟨"c", 1⟩]
  edges := [⟨"a", "b", 1, 1 / 4⟩, ⟨"a", "a", 1, 7⟩, ⟨"c", "a", 1, 2⟩, ⟨"b", "a", 1, 1 / 4⟩,
    ⟨"a", "x", 1, 5⟩]

/-- Without the third its degree is less by the edge to it, and by no other. -/
theorem parts_obey_set_laws_tangled :
    ∃ d, (tangledGraph.intersect (.ofList ["a", "b", "x"])).degrees["a"]? = some d ∧
      tangledGraph.degrees["a"]? = some (d + 2) := by
  have hcrossing : tangledGraph.crossingAt (.ofList ["a", "b", "x"]) "a" = 2 := by decide +kernel
  have hlabel : "a" ∈ (.ofList ["a", "b", "x"] : LabelSet) := mem_ofList_iff.mpr (by decide)
  have hnode : "a" ∈ tangledGraph.labels := mem_labels.mpr ⟨⟨"a", 1⟩, by decide, rfl⟩
  rw [← hcrossing]
  exact (parts_obey_set_laws (ω := Rat)).2 tangledGraph _ "a" hlabel hnode

end Graph

end Cochange
