import Cochange.Proofs.Graph.Connected

/-!
# Parts of a graph

Some labels of a graph, with the nodes that have them and the edges between these nodes, are a
graph again. A part has the labels that were asked for, as far as there are nodes with them
(`mem_labels_intersect`), and labels that are joined in the graph are joined in it
(`adjacent_intersect`).

No edge leads out of a component. So a way within it is a way of the part that it is, and this part
has itself for its only component (`components_intersect`). Whether some labels are a component of
another graph can be told by the nodes and edges at them (`Untouched.mem_components`).
-/

namespace Cochange

namespace Graph

variable {ω : Type} {g g' : Graph ω} {ls c : LabelSet} {u v l : String}

/-! ## Labels and edges -/

/-- The labels that stay are those with the property. -/
theorem mem_labels_filterNodes (g : Graph ω) (p : String → Bool) (l : String) :
    l ∈ (g.filterNodes p).labels ↔ l ∈ g.labels ∧ p l = true := by
  rw [mem_labels, mem_labels]
  show (∃ n ∈ g.nodes.filter fun n => p n.label, n.label = l) ↔ _
  simp only [List.mem_filter]
  constructor
  · rintro ⟨n, ⟨hn, hp⟩, rfl⟩
    exact ⟨⟨n, hn, rfl⟩, hp⟩
  · rintro ⟨⟨n, hn, rfl⟩, hp⟩
    exact ⟨n, ⟨hn, hp⟩, rfl⟩

/-- The labels of a part are the common ones. -/
theorem mem_labels_intersect : l ∈ (g.intersect ls).labels ↔ l ∈ g.labels ∧ l ∈ ls := by
  unfold intersect
  rw [mem_labels_filterNodes, Std.ExtTreeSet.contains_iff_mem]

/-- The edges of a part are those between two of its labels. -/
theorem edges_intersect (g : Graph ω) (ls : LabelSet) :
    (g.intersect ls).edges = g.edges.filter fun e =>
      (g.intersect ls).labels.contains e.source && (g.intersect ls).labels.contains e.target :=
  rfl

/-- The edges of a part have both their ends in it. -/
theorem mem_edges_intersect {e : Edge ω} :
    e ∈ (g.intersect ls).edges ↔
      e ∈ g.edges ∧ e.source ∈ (g.intersect ls).labels ∧ e.target ∈ (g.intersect ls).labels := by
  rw [edges_intersect, List.mem_filter, Bool.and_eq_true, Std.ExtTreeSet.contains_iff_mem,
    Std.ExtTreeSet.contains_iff_mem]

/-- What comes of a list item by item does not change without items of which nothing comes. -/
theorem filterMap_filter_of_none {α β : Type} {f : α → Option β} {p : α → Bool} {as : List α}
    (h : ∀ a ∈ as, ¬p a = true → f a = none) : (as.filter p).filterMap f = as.filterMap f := by
  rw [List.filterMap_filter]
  refine List.filterMap_congr fun a ha => ?_
  split
  next => rfl
  next hout => exact (h a ha hout).symm

/-- A part has no more nodes than the graph. -/
theorem length_nodes_intersect_le (g : Graph ω) (ls : LabelSet) :
    (g.intersect ls).nodes.length ≤ g.nodes.length :=
  List.length_filter_le _ _

/-- A part of a graph without repeated labels has none either. -/
theorem Distinct.intersect (hg : g.Distinct) (ls : LabelSet) : (g.intersect ls).Distinct :=
  (List.filter_sublist.map _).nodup hg

/-! ## Ways -/

/-- Adjacent labels of a part are adjacent in it. -/
theorem adjacent_intersect (hu : u ∈ ls) (hv : v ∈ ls) (h : g.Adjacent u v) :
    (g.intersect ls).Adjacent u v := by
  obtain ⟨hul, hvl, e, he, hj⟩ := h
  have hu' := mem_labels_intersect.mpr ⟨hul, hu⟩
  have hv' := mem_labels_intersect.mpr ⟨hvl, hv⟩
  refine ⟨hu', hv', e, mem_edges_intersect.mpr ⟨he, ?_⟩, hj⟩
  rcases hj with ⟨hs, ht⟩ | ⟨hs, ht⟩
  · rw [hs, ht]
    exact ⟨hu', hv'⟩
  · rw [hs, ht]
    exact ⟨hv', hu'⟩

/-- What is adjacent in a part is so in the graph. -/
theorem adjacent_of_intersect (h : (g.intersect ls).Adjacent u v) : g.Adjacent u v := by
  obtain ⟨hu, hv, e, he, hj⟩ := h
  exact ⟨(mem_labels_intersect.mp hu).1, (mem_labels_intersect.mp hv).1, e,
    (mem_edges_intersect.mp he).1, hj⟩

/-- Ways do not leave labels that no edge leads out of. -/
theorem Connected.mem_iff (hclosed : ∀ u v, g.Adjacent u v → (u ∈ c ↔ v ∈ c))
    (h : g.Connected u v) : u ∈ c ↔ v ∈ c := by
  induction h with
  | rel u v h => exact hclosed u v h
  | refl u => rfl
  | symm u v _ ih => exact ih.symm
  | trans u v w _ _ huv hvw => exact huv.trans hvw

/-- A way that starts among labels that no edge leads out of is a way of the part they are. -/
theorem Connected.intersect (hclosed : ∀ u v, g.Adjacent u v → (u ∈ c ↔ v ∈ c))
    (h : g.Connected u v) (hu : u ∈ c) : (g.intersect c).Connected u v := by
  induction h with
  | rel u v h => exact .rel _ _ (adjacent_intersect hu ((hclosed u v h).mp hu) h)
  | refl u => exact .refl u
  | symm u v h ih => exact .symm _ _ (ih ((Connected.mem_iff hclosed h).mpr hu))
  | trans u v w huv _ ih ih' =>
    exact .trans _ _ _ (ih hu) (ih' ((Connected.mem_iff hclosed huv).mp hu))

/-! ## Components -/

/-- Every component has a label. -/
theorem exists_mem_component (hc : c ∈ g.components) : ∃ l, l ∈ c := by
  obtain ⟨r, hr⟩ := mem_components.mp hc
  obtain ⟨n, hn, hroot⟩ := exists_labelsBy_iff.mp ⟨c, hr⟩
  exact ⟨n.1.label, (mem_labelsBy hr _).mpr ⟨n, hn, hroot, rfl⟩⟩

/-- No edge leads out of a component. -/
theorem component_closed (hg : g.Distinct) (hc : c ∈ g.components) (u v : String)
    (h : g.Adjacent u v) : u ∈ c ↔ v ∈ c := by
  constructor
  · intro hu
    exact (mem_component_iff hg hc hu).mpr ⟨h.2.1, .rel _ _ h⟩
  · intro hv
    exact (mem_component_iff hg hc hv).mpr ⟨h.1, .rel _ _ h.symm⟩

/-- As a graph of its own a component holds the same labels. -/
theorem labels_intersect_component (hg : g.Distinct) (hc : c ∈ g.components) :
    (g.intersect c).labels = c := by
  refine Std.ExtTreeSet.ext_mem fun l => ?_
  rw [mem_labels_intersect]
  exact and_iff_right_of_imp fun hl => mem_labels_of_mem_component hg hc hl

/-- As a graph of its own a component has no other component. -/
theorem components_intersect (hg : g.Distinct) (hc : c ∈ g.components) :
    (g.intersect c).components = [c] := by
  have hg' := hg.intersect c
  have hlabels := labels_intersect_component hg hc
  have hall : ∀ d ∈ (g.intersect c).components, d = c := by
    intro d hd
    obtain ⟨u, hu⟩ := exists_mem_component hd
    have huc : u ∈ c := hlabels ▸ mem_labels_of_mem_component hg' hd hu
    refine Std.ExtTreeSet.ext_mem fun v => ?_
    rw [mem_component_iff hg' hd hu, hlabels]
    refine and_iff_left_of_imp fun hv => ?_
    have huv := ((mem_component_iff hg hc huc).mp hv).2
    exact huv.intersect (component_closed hg hc) huc
  obtain ⟨u, hu⟩ := exists_mem_component hc
  obtain ⟨d, hd, -⟩ := exists_component hg' (hlabels.symm ▸ hu)
  have hdisjoint := components_disjoint hg'
  -- two of them would be equal and have no label in common
  cases hds : (g.intersect c).components with
  | nil =>
    rw [hds] at hd
    exact absurd hd List.not_mem_nil
  | cons a as =>
    rw [hds] at hall hdisjoint
    have has : as = [] := by
      refine List.eq_nil_iff_forall_not_mem.mpr fun b hb => ?_
      have hab := List.rel_of_pairwise_cons hdisjoint hb
      rw [hall a List.mem_cons_self, hall b (List.mem_cons_of_mem a hb)] at hab
      exact hab u hu hu
    rw [has, hall a List.mem_cons_self]

/-- What two graphs have at some labels is the same: the nodes, the edges between them, and no edge
to another node. -/
structure Untouched (g g' : Graph ω) (c : LabelSet) : Prop where
  nodes : (g'.intersect c).nodes = (g.intersect c).nodes
  edges : (g'.intersect c).edges = (g.intersect c).edges
  apart : ∀ e ∈ g'.edges, e.source ∈ g'.labels → e.target ∈ g'.labels →
    (e.source ∈ c ↔ e.target ∈ c)

/-- A component is one of every graph that is the same at its labels. -/
theorem Untouched.mem_components (h : Untouched g g' c) (hg : g.Distinct) (hg' : g'.Distinct)
    (hc : c ∈ g.components) : c ∈ g'.components := by
  have hsame : (g'.intersect c).labels = (g.intersect c).labels := by
    unfold labels
    rw [h.nodes]
  have hlabels := hsame.trans (labels_intersect_component hg hc)
  have hadjacent : ∀ u v, (g.intersect c).Adjacent u v → (g'.intersect c).Adjacent u v := by
    intro u v huv
    obtain ⟨hu, hv, e, he, hj⟩ := huv
    rw [labels_intersect_component hg hc] at hu hv
    exact ⟨hlabels.symm ▸ hu, hlabels.symm ▸ hv, e, h.edges.symm ▸ he, hj⟩
  have hclosed : ∀ u v, g'.Adjacent u v → (u ∈ c ↔ v ∈ c) := by
    intro u v huv
    obtain ⟨hu, hv, e, he, ⟨rfl, rfl⟩ | ⟨rfl, rfl⟩⟩ := huv
    · exact h.apart e he hu hv
    · exact (h.apart e he hv hu).symm
  obtain ⟨u, hu⟩ := exists_mem_component hc
  have hmem : ∀ v ∈ c, v ∈ g'.labels := fun v hv =>
    (mem_labels_intersect.mp (hlabels.symm ▸ hv : v ∈ (g'.intersect c).labels)).1
  obtain ⟨d, hd, hud⟩ := exists_component hg' (hmem u hu)
  have hdc : d = c := by
    refine Std.ExtTreeSet.ext_mem fun v => ?_
    rw [mem_component_iff hg' hd hud]
    constructor
    · intro hv
      exact (Connected.mem_iff hclosed hv.2).mp hu
    · intro hv
      have huv := ((mem_component_iff hg hc hu).mp hv).2.intersect (component_closed hg hc) hu
      exact ⟨hmem v hv,
        huv.mono fun a b hab => adjacent_of_intersect (hadjacent a b hab)⟩
  exact hdc ▸ hd

end Graph

end Cochange
