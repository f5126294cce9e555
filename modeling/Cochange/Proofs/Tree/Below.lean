import Cochange.SourceTree
import Mathlib.Data.Finset.Card
import Mathlib.Data.Finset.Dedup
import Mathlib.Data.Finset.Filter
import Mathlib.Tactic.Tauto

/-!
# What is below a node

A node is below another one if present nodes lead down to it, from each to one directly around
which it stands. The tree finds these nodes by its links, and it may, since its links are always
those of the present nodes (`Linked`): adding and removing nodes keep them so.

* `mem_descendants`: the nodes found under a node are those below it, whatever the size of the
  tree.
* `get?_remove_of_below`, `get?_remove_of_not_below`: they and no others are removed with it.
-/

namespace Cochange

namespace SourceTree

variable {t : SourceTree} {id x p c : QualifiedId}

/-- A node and all present nodes to which present nodes lead down from it. -/
inductive Below (t : SourceTree) (id : QualifiedId) : QualifiedId → Prop
  | self (h : t.contains id = true) : Below t id id
  | step {p c : QualifiedId} (hp : Below t id p) (hc : t.contains c = true)
      (h : c.parent? = some p) : Below t id c

/-- The links are those from the node around each present node to this node. -/
def Linked (t : SourceTree) : Prop :=
  ∀ p c, c ∈ t.childList p ↔ c.parent? = some p ∧ t.contains c = true

theorem contains_iff : t.contains x = true ↔ ∃ k, t.get? x = some k := by
  rw [contains, get?, Std.ExtTreeMap.contains_eq_isSome_getElem?, Option.isSome_iff_exists]

theorem contains_eq_false_iff : t.contains x = false ↔ t.get? x = none := by
  rw [contains, get?, Std.ExtTreeMap.contains_eq_isSome_getElem?, Option.isSome_eq_false_iff,
    Option.isNone_iff_eq_none]

theorem Below.contains (h : t.Below id x) : t.contains x = true := by
  cases h with
  | self h => exact h
  | step _ hc _ => exact hc

theorem Below.contains_top (h : t.Below id x) : t.contains id = true := by
  induction h with
  | self h => exact h
  | step _ _ _ ih => exact ih

/-- The first step down instead of the last one. -/
theorem below_iff_top : t.Below id x ↔
    t.contains id = true ∧ (x = id ∨ ∃ c, c.parent? = some id ∧ t.Below c x) := by
  constructor
  · intro h
    refine ⟨h.contains_top, ?_⟩
    induction h with
    | self h => exact Or.inl rfl
    | step hp hc hpar ih =>
      rcases ih with rfl | ⟨d, hd, hdp⟩
      · exact Or.inr ⟨_, hpar, .self hc⟩
      · exact Or.inr ⟨d, hd, .step hdp hc hpar⟩
  · rintro ⟨hid, rfl | ⟨c, hc, hcx⟩⟩
    · exact .self hid
    · induction hcx with
      | self h => exact .step (.self hid) h hc
      | step _ hc' hpar ih => exact .step ih hc' hpar

/-- A node whose parent is known is below another one if it is this one or its parent is. -/
theorem below_iff_parent (hc : c.parent? = some p) (hcontains : t.contains c = true) :
    t.Below id c ↔ c = id ∨ t.Below id p := by
  constructor
  · intro h
    cases h with
    | self _ => exact Or.inl rfl
    | step hp _ hpar =>
      rw [hc, Option.some.injEq] at hpar
      exact Or.inr (hpar ▸ hp)
  · rintro (rfl | h)
    · exact .self hcontains
    · exact .step h hcontains hc

/-! ## Nodes found by the links -/

/-- The present nodes with at least so many parts behind the path. -/
def atDepth (t : SourceTree) (d : Nat) : Finset QualifiedId :=
  t.kinds.keys.toFinset.filter fun x => d ≤ x.depth

theorem mem_atDepth {d : Nat} : x ∈ t.atDepth d ↔ t.contains x = true ∧ d ≤ x.depth := by
  rw [atDepth, Finset.mem_filter, List.mem_toFinset, Std.ExtTreeMap.mem_keys]
  exact Iff.rfl

theorem card_atDepth_le (t : SourceTree) (d : Nat) : (t.atDepth d).card ≤ t.size := by
  refine (Finset.card_filter_le _ _).trans ((List.toFinset_card_le _).trans (Nat.le_of_eq ?_))
  exact Std.ExtTreeMap.length_keys

theorem card_atDepth_pos (hid : t.contains id = true) : 0 < (t.atDepth id.depth).card :=
  Finset.card_pos.mpr ⟨id, mem_atDepth.mpr ⟨hid, Nat.le_refl _⟩⟩

/-- Below a present node fewer nodes are left. -/
theorem card_atDepth_child (hid : t.contains id = true) (hc : c.parent? = some id) :
    (t.atDepth c.depth).card < (t.atDepth id.depth).card := by
  have hdepth := QualifiedId.depth_of_parent? hc
  refine Finset.card_lt_card ⟨fun x hx => ?_, fun hsub => ?_⟩
  · rw [mem_atDepth] at hx ⊢
    exact ⟨hx.1, by omega⟩
  · have hin := (mem_atDepth.mp (hsub (mem_atDepth.mpr ⟨hid, Nat.le_refl _⟩))).2
    omega

/-- With fuel for the depths that are left, the traversal lists exactly what is below. -/
theorem mem_descendantsWithin (ht : t.Linked) {fuel : Nat} : ∀ {id : QualifiedId},
    (t.atDepth id.depth).card ≤ fuel →
    (x ∈ (t.descendantsWithin fuel id).map (·.1) ↔ t.Below id x) := by
  induction fuel with
  | zero =>
    intro id hfuel
    -- no node is left, so not even this one is present
    have hnot : ¬t.contains id = true := fun hid => by
      have hpos := card_atDepth_pos hid
      omega
    exact ⟨fun h => absurd h List.not_mem_nil, fun h => absurd h.contains_top hnot⟩
  | succ fuel ih =>
    intro id hfuel
    rw [descendantsWithin, below_iff_top, contains_iff]
    cases hk : t.get? id with
    | none => simp
    | some k =>
      have hid : t.contains id = true := contains_iff.mpr ⟨k, hk⟩
      simp only [List.map_cons, List.mem_cons, List.map_flatMap, List.mem_flatMap, ht id,
        Option.some.injEq, exists_eq', true_and]
      refine or_congr_right (exists_congr fun c => ?_)
      constructor
      · rintro ⟨⟨hc, -⟩, hx⟩
        have hless := card_atDepth_child hid hc
        exact ⟨hc, (ih (by omega)).mp hx⟩
      · rintro ⟨hc, hx⟩
        have hless := card_atDepth_child hid hc
        exact ⟨⟨hc, hx.contains_top⟩, (ih (by omega)).mpr hx⟩

/-- The nodes found under a node are those below it. -/
theorem mem_descendants (ht : t.Linked) :
    x ∈ (t.descendants id).map (·.1) ↔ t.Below id x :=
  mem_descendantsWithin ht (t.card_atDepth_le id.depth)

/-- Removing takes out exactly what is below. -/
theorem mem_removed (ht : t.Linked) : x ∈ (t.removed id).map (·.1) ↔ t.Below id x := by
  unfold removed
  split
  next => exact mem_descendants ht
  next h => exact ⟨fun hx => absurd hx List.not_mem_nil, fun hx => absurd hx.contains_top h⟩

theorem get?_remove_of_below (ht : t.Linked) (h : t.Below id x) : (t.remove id).get? x = none := by
  rw [get?_remove, if_pos ((mem_removed ht).mpr h)]

theorem get?_remove_of_not_below (ht : t.Linked) (h : ¬t.Below id x) :
    (t.remove id).get? x = t.get? x := by
  rw [get?_remove, if_neg fun hx => h ((mem_removed ht).mp hx)]

/-- What is left after a removal is what was not below. -/
theorem contains_remove (ht : t.Linked) :
    (t.remove id).contains x = true ↔ t.contains x = true ∧ ¬t.Below id x := by
  rw [contains_iff, contains_iff]
  by_cases h : t.Below id x
  · rw [get?_remove_of_below ht h]
    simp [h]
  · rw [get?_remove_of_not_below ht h]
    simp [h]

/-! ## The links stay right -/

theorem mem_childList : c ∈ t.childList p ↔ ∃ s, t.children[p]? = some s ∧ c ∈ s := by
  unfold childList
  cases t.children[p]? with
  | none => simp
  | some s => simp

theorem linked_empty : empty.Linked := by
  intro p c
  simp [mem_childList, empty, contains]

/-- Erasing a node drops its list of children, and touches no other list. -/
theorem mem_childList_eraseNode :
    c ∈ (t.eraseNode x).childList p ↔ p ≠ x ∧ c ∈ t.childList p := by
  rw [mem_childList, mem_childList, eraseNode]
  by_cases hp : x = p
  · simp [hp]
  · simp [Std.ExtTreeMap.getElem?_erase, hp, Ne.symm hp]

theorem mem_childList_foldl_eraseNode (ds : List (QualifiedId × NodeKind)) : ∀ {t : SourceTree},
    c ∈ (ds.foldl (fun t d => t.eraseNode d.1) t).childList p ↔
      p ∉ ds.map (·.1) ∧ c ∈ t.childList p := by
  induction ds with
  | nil => simp
  | cons d ds ih =>
    intro t
    rw [List.foldl_cons, ih, mem_childList_eraseNode, List.map_cons, List.mem_cons]
    tauto

/-- A set with nothing but `x` to take out has no other member. -/
theorem eq_of_isEmpty_erase {s : Std.ExtTreeSet QualifiedId} (h : (s.erase x).isEmpty = true)
    (hc : c ∈ s) : c = x := by
  by_contra hne
  have hmem : c ∈ s.erase x := by simp [hc, Ne.symm hne]
  rw [Std.ExtTreeSet.isEmpty_iff.mp h] at hmem
  exact Std.ExtTreeSet.not_mem_empty hmem

/-- Unlinking takes a node out of the list of its parent. -/
theorem mem_childList_unlink :
    c ∈ (t.unlink x).childList p ↔ c ∈ t.childList p ∧ ¬(c = x ∧ x.parent? = some p) := by
  rw [mem_childList, mem_childList, unlink]
  split
  next hx => simp [hx]
  next q hq =>
    simp only [Std.ExtTreeMap.getElem?_alter, hq, Option.some.injEq]
    by_cases hpq : q = p
    · subst hpq
      simp only [Std.ReflOrd.compare_self, ↓reduceIte, and_true]
      cases t.children[q]? with
      | none => simp
      | some s =>
        by_cases hempty : (s.erase x).isEmpty = true
        · simp only [Option.bind_some, hempty, if_true]
          simpa using fun hc : c ∈ s => eq_of_isEmpty_erase hempty hc
        · simp only [Option.bind_some, hempty, Bool.false_eq_true, ↓reduceIte, Option.some.injEq,
            exists_eq_left', Std.ExtTreeSet.mem_erase, ne_eq, Std.compare_eq_iff_eq]
          exact and_comm.trans (and_congr_right' (not_congr eq_comm))
    · simp [hpq]

/-- Removal keeps the tree linked. -/
theorem Linked.remove (ht : t.Linked) (id : QualifiedId) : (t.remove id).Linked := by
  intro p c
  rw [contains_remove ht, ← and_assoc, ← ht p c]
  unfold SourceTree.remove
  split
  next hid =>
    rw [mem_childList_unlink, mem_childList_foldl_eraseNode, mem_descendants ht]
    by_cases hc : c ∈ t.childList p
    · obtain ⟨hpar, hcontains⟩ := (ht p c).mp hc
      rw [below_iff_parent hpar hcontains]
      have hunlinked : c = id ∧ id.parent? = some p ↔ c = id :=
        and_iff_left_of_imp fun h => h ▸ hpar
      rw [hunlinked]
      tauto
    · simp [hc]
  next hid =>
    exact (and_iff_left fun h => absurd h.contains_top hid).symm

/-- Inserting puts a node into the list of its parent. -/
theorem mem_childList_insertNode {k : NodeKind} :
    c ∈ (t.insertNode x k).childList p ↔ c ∈ t.childList p ∨ (c = x ∧ x.parent? = some p) := by
  show c ∈ (t.link x).childList p ↔ _
  rw [mem_childList, mem_childList, link]
  split
  next hx => simp [hx]
  next q hq =>
    simp only [Std.ExtTreeMap.getElem?_alter, hq, Option.some.injEq]
    by_cases hpq : q = p
    · subst hpq
      cases t.children[q]? with
      | none => simp [eq_comm (a := c)]
      | some s => simp [eq_comm (a := c), or_comm]
    · simp [hpq]

theorem contains_insertNode {k : NodeKind} :
    (t.insertNode id k).contains x = true ↔ x = id ∨ t.contains x = true := by
  rw [contains_iff, contains_iff, get?_insertNode]
  by_cases hx : x = id <;> simp [hx]

/-- Insertion keeps the tree linked. -/
theorem Linked.insertNode (ht : t.Linked) (id : QualifiedId) (k : NodeKind) :
    (t.insertNode id k).Linked := by
  intro p c
  rw [mem_childList_insertNode, contains_insertNode, ht p c]
  constructor
  · rintro (⟨hpar, hc⟩ | ⟨rfl, hpar⟩)
    · exact ⟨hpar, Or.inr hc⟩
    · exact ⟨hpar, Or.inl rfl⟩
  · rintro ⟨hpar, rfl | hc⟩
    · exact Or.inr ⟨rfl, hpar⟩
    · exact Or.inl ⟨hpar, hc⟩

end SourceTree

end Cochange
