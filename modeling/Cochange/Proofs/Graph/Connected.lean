import Cochange.Proofs.Graph.Components

/-!
# Connected labels

Two labels are adjacent if an edge joins them, and connected if a way of edges leads from one to
the other. Edges whose ends are no nodes join nothing. The components are told apart by the
classes of positions; here they are said about the edges alone:

* `classOf_eq_iff`: labels of one class are the connected ones.
* `mem_component_iff`: a component holds all labels that are connected to any one of its own.
* `components_disjoint`: no label is in two components.
-/

namespace Cochange

namespace Graph

variable {ω : Type} {g : Graph ω} {u v : String}

/-- Whether an edge joins two nodes. -/
def Adjacent (g : Graph ω) (u v : String) : Prop :=
  u ∈ g.labels ∧ v ∈ g.labels ∧
    ∃ e ∈ g.edges, (e.source = u ∧ e.target = v) ∨ (e.source = v ∧ e.target = u)

/-- Whether edges lead from one label to another, in any number of steps. -/
def Connected (g : Graph ω) : String → String → Prop :=
  Relation.EqvGen g.Adjacent

/-- Adjacent labels are so in both orders. -/
theorem Adjacent.symm (h : g.Adjacent u v) : g.Adjacent v u := by
  obtain ⟨hu, hv, e, he, hj⟩ := h
  exact ⟨hv, hu, e, he, hj.symm⟩

/-- An edge between two positions joins the labels there. -/
theorem adjacent_of_joinedPositions {a b : Nat} (hab : (a, b) ∈ g.joinedPositions) :
    ∃ u v, g.lastPositions[u]? = some a ∧ g.lastPositions[v]? = some b ∧ g.Adjacent u v := by
  obtain ⟨e, he, hsome⟩ := List.mem_filterMap.mp hab
  split at hsome
  next x y hx hy =>
    cases hsome
    exact ⟨e.source, e.target, hx, hy, exists_position_iff.mp ⟨a, hx⟩,
      exists_position_iff.mp ⟨b, hy⟩, e, he, Or.inl ⟨rfl, rfl⟩⟩
  next => exact absurd hsome (by simp)

/-- Positions that edges lead between hold connected labels. -/
theorem connected_of_eqvGen {a b : Nat}
    (h : Relation.EqvGen (fun a b => (a, b) ∈ g.joinedPositions) a b) :
    a = b ∨ ∃ u v, g.lastPositions[u]? = some a ∧ g.lastPositions[v]? = some b ∧
      g.Connected u v := by
  induction h with
  | rel a b hab =>
    obtain ⟨u, v, hu, hv, huv⟩ := adjacent_of_joinedPositions hab
    exact Or.inr ⟨u, v, hu, hv, .rel _ _ huv⟩
  | refl a => exact Or.inl rfl
  | symm a b _ ih =>
    rcases ih with rfl | ⟨u, v, hu, hv, huv⟩
    · exact Or.inl rfl
    · exact Or.inr ⟨v, u, hv, hu, .symm _ _ huv⟩
  | trans a b c _ _ hab hbc =>
    rcases hab with rfl | ⟨u, v, hu, hv, huv⟩
    · exact hbc
    · rcases hbc with rfl | ⟨v', w, hv', hw, hvw⟩
      · exact Or.inr ⟨u, v, hu, hv, huv⟩
      · rw [lastPositions_inj hv' hv] at hvw
        exact Or.inr ⟨u, w, hu, hw, .trans _ _ _ huv hvw⟩

/-- Connected labels have one class. -/
theorem classOf_eq_of_connected (h : g.Connected u v) : g.classOf u = g.classOf v := by
  induction h with
  | rel u v huv =>
    obtain ⟨hu, hv, e, he, ⟨hs, ht⟩ | ⟨hs, ht⟩⟩ := huv
    · rw [← hs, ← ht]
      exact classOf_edge he (hs ▸ hu) (ht ▸ hv)
    · rw [← hs, ← ht]
      exact (classOf_edge he (hs ▸ hv) (ht ▸ hu)).symm
  | refl u => rfl
  | symm u v _ ih => exact ih.symm
  | trans u v w _ _ huv hvw => exact huv.trans hvw

/-- Labels of one class are the connected ones. -/
theorem classOf_eq_iff (hu : u ∈ g.labels) (hv : v ∈ g.labels) :
    g.classOf u = g.classOf v ↔ g.Connected u v := by
  refine ⟨fun h => ?_, classOf_eq_of_connected⟩
  obtain ⟨i, hi⟩ := exists_position_iff.mpr hu
  obtain ⟨j, hj⟩ := exists_position_iff.mpr hv
  rw [classOf, classOf, hi, hj, Option.map_some, Option.map_some, Option.some.injEq] at h
  rcases connected_of_eqvGen (same_partition.mp h) with rfl | ⟨u', v', hu', hv', huv⟩
  · rw [lastPositions_inj hi hj]
    exact .refl v
  · rw [lastPositions_inj hi hu', lastPositions_inj hj hv']
    exact huv

/-- Only labels of nodes have a class. -/
theorem mem_labels_of_classOf {r : Nat} (hu : g.classOf u = some r) : u ∈ g.labels := by
  obtain ⟨i, hi, -⟩ := Option.map_eq_some_iff.mp hu
  exact exists_position_iff.mp ⟨i, hi⟩

/-- The labels of a class are those that are connected to any one of them. -/
theorem mem_class_iff {r : Nat} (hu : g.classOf u = some r) :
    g.classOf v = some r ↔ v ∈ g.labels ∧ g.Connected u v := by
  have hul := mem_labels_of_classOf hu
  constructor
  · intro hv
    have hvl := mem_labels_of_classOf hv
    exact ⟨hvl, (classOf_eq_iff hul hvl).mp (hu.trans hv.symm)⟩
  · intro ⟨hvl, huv⟩
    rw [← (classOf_eq_iff hul hvl).mpr huv, hu]

/-! ## Components -/

/-- Components have labels of nodes only. -/
theorem mem_labels_of_mem_component (hg : g.Distinct) {c : LabelSet} (hc : c ∈ g.components)
    (hu : u ∈ c) : u ∈ g.labels := by
  obtain ⟨r, hr⟩ := mem_component hg hc
  exact mem_labels_of_classOf ((hr u).mp hu)

/-- A component holds all labels that are connected to any one of its own, and no others. -/
theorem mem_component_iff (hg : g.Distinct) {c : LabelSet} (hc : c ∈ g.components) (hu : u ∈ c) :
    v ∈ c ↔ v ∈ g.labels ∧ g.Connected u v := by
  obtain ⟨r, hr⟩ := mem_component hg hc
  exact (hr v).trans (mem_class_iff ((hr u).mp hu))

/-- No label is in two components. -/
theorem components_disjoint (hg : g.Distinct) :
    g.components.Pairwise fun c d => ∀ l ∈ c, l ∉ d := by
  have hsymm : ∀ {c d : LabelSet}, (∀ l ∈ c, l ∉ d) → ∀ l ∈ d, l ∉ c :=
    fun h l hd hc => h l hc hd
  rw [components, (List.mergeSort_perm _ _).pairwise_iff hsymm, List.pairwise_map]
  -- the classes are kept under different representatives
  refine Std.ExtTreeMap.distinct_keys_toList.imp_of_mem fun {c d} hc hd hne l hlc hld => ?_
  rw [Std.ExtTreeMap.mem_toList_iff_getElem?_eq_some] at hc hd
  have hr := (mem_classes hg hc).mp hlc
  rw [(mem_classes hg hd).mp hld, Option.some.injEq] at hr
  exact hne (Std.compare_eq_iff_eq.mpr hr.symm)

end Graph

end Cochange
