import Cochange.Proofs.Tree.Below

/-!
# What holds of every tree

A tree starts empty and is changed by adding and removing nodes only. So what these two keep holds
of every tree that any operations build (`Kept.built`): its links are those of its nodes (`Linked`),
no empty set of links is left behind (`Tidy`), and each node has the kind it was given last
(`get?_built`).
-/

namespace Cochange

/-- The tree after an edit; one that cannot be applied changes nothing. -/
def SourceTree.after (t : SourceTree) (e : Edit) : SourceTree :=
  match t.apply e with
  | .ok t => t
  | .error _ => t

namespace SourceTree

variable {t : SourceTree} {id x p c : QualifiedId}

/-- A node that can be walked is added with all below it, in place of what stood there. -/
theorem after_addNode (t : SourceTree) (id : QualifiedId) (node : SourceNode) :
    t.after (.addNode id node) =
      match node.walk id with
      | .error _ => t
      | .ok nodes =>
        (nodes.map fun n => (n.1, n.2.kind)).foldl (fun t n => t.insertNode n.1 n.2)
          (t.remove id) := by
  unfold SourceTree.after
  rw [apply, add]
  cases node.walk id <;> rfl

/-! ## Operations -/

/-- An operation on a tree. -/
inductive Operation where
  | add (id : QualifiedId) (node : SourceNode)
  | remove (id : QualifiedId)
  | apply (e : Edit)

/-- The tree after an operation; one that fails changes nothing. -/
def perform (t : SourceTree) : Operation → SourceTree
  | .add id node =>
    match t.add id node with
    | .ok (t, _) => t
    | .error _ => t
  | .remove id => t.remove id
  | .apply e => t.after e

/-- The tree that operations make of the empty one. -/
def built (ops : List Operation) : SourceTree :=
  ops.foldl perform .empty

/-- The edit that does what an operation does. -/
def Operation.edit : Operation → Edit
  | add id node => .addNode id node
  | remove id => .removeNode id
  | apply e => e

theorem perform_eq (t : SourceTree) (o : Operation) : t.perform o = t.after o.edit := by
  cases o with
  | add id node =>
    cases hadd : t.add id node <;>
      simp only [perform, Operation.edit, SourceTree.after, SourceTree.apply, hadd, Except.map]
  | remove id => rfl
  | apply e => rfl

/-- What removing nodes and inserting single ones keep. -/
structure Kept (P : SourceTree → Prop) : Prop where
  remove : ∀ {t}, P t → ∀ id, P (t.remove id)
  insertNode : ∀ {t}, P t → ∀ id kind, P (t.insertNode id kind)

namespace Kept

variable {P : SourceTree → Prop}

/-- What each insertion keeps, inserting any nodes keeps. -/
theorem foldl_insertNode (hP : Kept P) (nodes : List (QualifiedId × NodeKind)) :
    ∀ {t : SourceTree}, P t → P (nodes.foldl (fun t n => t.insertNode n.1 n.2) t) := by
  induction nodes with
  | nil => exact fun h => h
  | cons n nodes ih => exact fun h => ih (hP.insertNode h n.1 n.2)

/-- The step. -/
theorem after (hP : Kept P) (h : P t) (e : Edit) : P (t.after e) := by
  cases e with
  | addNode id node =>
    rw [after_addNode]
    cases node.walk id with
    | error why => exact h
    | ok nodes => exact hP.foldl_insertNode _ (hP.remove h id)
  | removeNode id => exact hP.remove h id
  | editEntity id => exact h

/-- What removal and insertion keep, a run of edits keeps. -/
theorem foldl_after (hP : Kept P) (es : List Edit) :
    ∀ {t : SourceTree}, P t → P (es.foldl SourceTree.after t) := by
  induction es with
  | nil => exact fun h => h
  | cons e es ih => exact fun h => ih (hP.after h e)

/-- The run. -/
theorem built (hP : Kept P) (hempty : P .empty) (ops : List Operation) :
    P (SourceTree.built ops) := by
  have hperform : perform = fun t o => t.after o.edit := funext₂ perform_eq
  unfold SourceTree.built
  rw [hperform, ← List.foldl_map]
  exact hP.foldl_after _ hempty

end Kept

/-! ## The links -/

/-- Both operations keep a tree linked. -/
theorem kept_linked : Kept Linked where
  remove h id := h.remove id
  insertNode h id kind := h.insertNode id kind

/-- A tree that operations build is linked. -/
theorem linked_built (ops : List Operation) : (built ops).Linked :=
  kept_linked.built linked_empty ops

/-- Wherever links are kept there are some. -/
def Tidy (t : SourceTree) : Prop :=
  ∀ (p : QualifiedId) (s : Std.ExtTreeSet QualifiedId), t.children[p]? = some s → ∃ c, c ∈ s

theorem tidy_empty : empty.Tidy := by
  intro p s hs
  cases hs

theorem Tidy.insertNode (ht : t.Tidy) (id : QualifiedId) (kind : NodeKind) :
    (t.insertNode id kind).Tidy := by
  intro p s hs
  have hs : (t.link id).children[p]? = some s := hs
  unfold link at hs
  split at hs
  next => exact ht p s hs
  next q hq =>
    rw [Std.ExtTreeMap.getElem?_alter] at hs
    split at hs
    next =>
      cases hs
      exact ⟨id, by simp⟩
    next => exact ht p s hs

theorem Tidy.eraseNode (ht : t.Tidy) (id : QualifiedId) : (t.eraseNode id).Tidy := by
  intro p s hs
  have hs : (t.children.erase id)[p]? = some s := hs
  rw [Std.ExtTreeMap.getElem?_erase] at hs
  split at hs
  next => cases hs
  next => exact ht p s hs

theorem Tidy.unlink (ht : t.Tidy) (id : QualifiedId) : (t.unlink id).Tidy := by
  intro p s hs
  unfold SourceTree.unlink at hs
  split at hs
  next => exact ht p s hs
  next q hq =>
    rw [Std.ExtTreeMap.getElem?_alter] at hs
    split at hs
    next =>
      obtain ⟨s', -, hs'⟩ := Option.bind_eq_some_iff.mp hs
      split at hs'
      next => cases hs'
      next hempty =>
        cases hs'
        by_contra hnone
        refine hempty (Std.ExtTreeSet.isEmpty_iff.mpr ?_)
        exact Std.ExtTreeSet.eq_empty_iff_forall_not_mem.mpr fun c hc => hnone ⟨c, hc⟩
    next => exact ht p s hs

theorem Tidy.remove (ht : t.Tidy) (id : QualifiedId) : (t.remove id).Tidy := by
  have hfold : ∀ (ds : List (QualifiedId × NodeKind)) {t : SourceTree}, t.Tidy →
      (ds.foldl (fun t d => t.eraseNode d.1) t).Tidy := by
    intro ds
    induction ds with
    | nil => exact fun h => h
    | cons d ds ih => exact fun h => ih (h.eraseNode d.1)
  unfold SourceTree.remove
  split
  next => exact (hfold _ ht).unlink id
  next => exact ht

/-- Both operations keep a tree tidy. -/
theorem kept_tidy : Kept Tidy where
  remove h id := h.remove id
  insertNode h id kind := h.insertNode id kind

/-- A tree that operations build is tidy. -/
theorem tidy_built (ops : List Operation) : (built ops).Tidy :=
  kept_tidy.built tidy_empty ops

/-! ## The kinds -/

/-- The kind of the last node with an id. -/
def lastKind (nodes : List (QualifiedId × NodeKind)) (x : QualifiedId) : Option NodeKind :=
  (nodes.reverse.find? fun n => n.1 = x).map (·.2)

theorem lastKind_eq_none_iff {nodes : List (QualifiedId × NodeKind)} :
    lastKind nodes x = none ↔ x ∉ nodes.map (·.1) := by
  unfold lastKind
  rw [Option.map_eq_none_iff, List.find?_eq_none, List.mem_map, not_exists]
  refine forall_congr' fun n => ?_
  rw [List.mem_reverse, decide_eq_true_iff, not_and]

/-- Of nodes inserted one after the other the last of an id gives its kind. -/
theorem get?_foldl_insertNode (nodes : List (QualifiedId × NodeKind)) (x : QualifiedId) :
    ∀ t : SourceTree, (nodes.foldl (fun t n => t.insertNode n.1 n.2) t).get? x =
      (lastKind nodes x).or (t.get? x) := by
  induction nodes with
  | nil => exact fun t => rfl
  | cons n nodes ih =>
    intro t
    have hcons : lastKind (n :: nodes) x =
        (lastKind nodes x).or (if n.1 = x then some n.2 else none) := by
      unfold lastKind
      rw [List.reverse_cons, List.find?_append, Option.map_or]
      by_cases hn : n.1 = x <;> simp [hn]
    rw [List.foldl_cons, ih, get?_insertNode, hcons, Option.or_assoc]
    by_cases hn : n.1 = x
    · simp [hn]
    · simp [hn, Ne.symm hn]

/-- The kind that an operation gives to a node, if it adds that node. -/
def Operation.kind? (x : QualifiedId) (o : Operation) : Option NodeKind :=
  match o.edit with
  | .addNode id node =>
    match node.walk id with
    | .error _ => none
    | .ok nodes => lastKind (nodes.map fun n => (n.1, n.2.kind)) x
  | .removeNode _ | .editEntity _ => none

/-- The kind that operations gave to a node last. -/
def latestKind (ops : List Operation) (x : QualifiedId) : Option NodeKind :=
  ops.foldl (fun k o => (o.kind? x).or k) none

/-- A removal changes no kind of a node that stays. -/
theorem get?_of_get?_remove {k : NodeKind} (h : (t.remove id).get? x = some k) :
    t.get? x = some k := by
  rw [get?_remove] at h
  split at h
  next => cases h
  next => exact h

/-- A node has the kind that an operation gives to it, or else the one it had. -/
theorem get?_perform (o : Operation) {k : NodeKind} (h : (t.perform o).get? x = some k) :
    o.kind? x = some k ∨ (o.kind? x = none ∧ t.get? x = some k) := by
  rw [perform_eq] at h
  unfold Operation.kind?
  cases he : o.edit with
  | addNode id node =>
    rw [he, after_addNode] at h
    cases hw : node.walk id with
    | error why =>
      simp only [hw] at h ⊢
      exact Or.inr ⟨trivial, h⟩
    | ok nodes =>
      simp only [hw] at h ⊢
      rw [get?_foldl_insertNode] at h
      cases hlast : lastKind (nodes.map fun n => (n.1, n.2.kind)) x with
      | some k' =>
        rw [hlast] at h
        exact Or.inl h
      | none =>
        rw [hlast, Option.none_or] at h
        exact Or.inr ⟨rfl, get?_of_get?_remove h⟩
  | removeNode id =>
    rw [he] at h
    exact Or.inr ⟨rfl, get?_of_get?_remove h⟩
  | editEntity id =>
    rw [he] at h
    exact Or.inr ⟨rfl, h⟩

/-- A present node has the kind it was given last. -/
theorem get?_built (ops : List Operation) {k : NodeKind} (h : (built ops).get? x = some k) :
    latestKind ops x = some k := by
  have hrun : ∀ (ops : List Operation) (t : SourceTree) (given : Option NodeKind),
      (∀ k, t.get? x = some k → given = some k) → (ops.foldl perform t).get? x = some k →
      ops.foldl (fun k o => (o.kind? x).or k) given = some k := by
    intro ops
    induction ops with
    | nil => exact fun t given hgiven h => hgiven k h
    | cons o ops ih =>
      intro t given hgiven h
      refine ih (t.perform o) _ (fun k' hk' => ?_) h
      show (o.kind? x).or given = some k'
      rcases get?_perform o hk' with hnew | ⟨hnone, hold⟩
      · rw [hnew]
        rfl
      · rw [hnone, hgiven k' hold]
        rfl
  exact hrun ops .empty none (fun k hk => by simp [get?, empty] at hk) h

end SourceTree

end Cochange
