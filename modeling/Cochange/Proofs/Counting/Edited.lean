import Cochange.Proofs.Counting.Sound
import Cochange.Proofs.Tree.Operations
import Mathlib.Data.Finset.Union

/-!
# What the edits of a revision do to each entity

The count acts on handles. Here its effect is said about ids, without handles and without the
order in which anything is stored.

`editedBy` is the rule for what edits leave edited: nodes that are added or edited are edited as
far as their kinds are tracked, and a removal takes out again all that is within the removed node.
`Visited` says what some edits do to a sound count: the tree becomes the tree after them, entities
within a removed node lose their counts and pairs, and what is edited follows the rule. It holds of
a single edit (`visit_visited`), of nothing (`Visited.refl`), of edits one behind the other
(`Visited.trans`), and so of all edits of a revision (`visitAll_visited`).
-/

namespace Cochange

namespace Edit

/-- Whether an edit removes an entity: itself or a node that it is within. -/
def removes : Edit → QualifiedId → Bool
  | removeNode id, x => x.isWithin id
  | addNode .., _ => false
  | editEntity _, _ => false

/-- The nodes of a walk that are tracked, for their languages and kinds. -/
def tracked (ls : Languages) (nodes : List (QualifiedId × SourceNode)) : List QualifiedId :=
  (nodes.filter fun n => ls.isTrackable n.1 n.2.kind).map (·.1)

/-- What is edited behind an edit, given what was edited before it and the tree at that point. -/
def editedAfter (ls : Languages) (t : SourceTree) (before : Finset QualifiedId) :
    Edit → Finset QualifiedId
  | addNode id node =>
    match node.walk id with
    | .error _ => before
    | .ok nodes => before ∪ (tracked ls nodes).toFinset
  | removeNode id => before.filter fun x => x.isWithin id = false
  | editEntity id =>
    match t.get? id with
    | some kind => if ls.isTrackable id kind then insert id before else before
    | none => insert id before

end Edit

/-- What is edited behind some edits. -/
def editedBy (ls : Languages) : SourceTree → Finset QualifiedId → List Edit → Finset QualifiedId
  | _, before, [] => before
  | t, before, e :: es => editedBy ls (t.after e) (e.editedAfter ls t before) es

/-- Whether one of the edits of a revision removes an entity. -/
def Revision.removes (r : Revision) (x : QualifiedId) : Bool :=
  r.edits.any (·.removes x)

/-- Of edits one after the other the later ones go on from where the earlier ones end. -/
theorem editedBy_append (ls : Languages) (es fs : List Edit) (t : SourceTree)
    (before : Finset QualifiedId) :
    editedBy ls t before (es ++ fs) =
      editedBy ls (es.foldl SourceTree.after t) (editedBy ls t before es) fs := by
  induction es generalizing t before with
  | nil => rfl
  | cons e es ih => exact ih ..

namespace ChangeCounter

/-- Whether the revision under way has edited an entity. -/
def IsEdited (s : ChangeCounter × EditedSet) (x : QualifiedId) : Prop :=
  ∃ h, s.1.interner.get? x = some h ∧ h ∈ s.2

/-- The cell of two entities, if it is recorded. -/
def jointCell? (c : ChangeCounter) (x y : QualifiedId) : Option Nat :=
  (c.interner.get? x).bind fun a => (c.interner.get? y).bind fun b => c.joint.get? a b

/-- An entity without a handle or without changes has the count zero. -/
theorem changeCount_eq (c : ChangeCounter) (x : QualifiedId) :
    c.changeCount x = ((c.interner.get? x).bind fun h => c.changes[h]?).getD 0 := by
  unfold changeCount
  cases c.interner.get? x <;> rfl

/-- Whether an entity is edited is told by its handle. -/
theorem isEdited_of_get? {s : ChangeCounter × EditedSet} {x : QualifiedId} {h : Handle}
    (hx : s.1.interner.get? x = some h) : IsEdited s x ↔ h ∈ s.2 := by
  constructor
  · rintro ⟨k, hk, hmem⟩
    rw [hx] at hk
    exact Option.some.inj hk ▸ hmem
  · exact fun hmem => ⟨h, hx, hmem⟩

theorem not_isEdited_empty (c : ChangeCounter) (x : QualifiedId) : ¬IsEdited (c, ∅) x := by
  rintro ⟨h, -, hmem⟩
  exact Std.ExtTreeSet.not_mem_empty hmem

namespace Sound

variable {s : ChangeCounter × EditedSet}

/-! ## An edited entity -/

/-- Nothing is counted under a handle that stands for nothing. -/
theorem changes_of_unknown (hs : Sound s) {h : Handle} (hh : s.1.interner.resolve? h = none) :
    s.1.changes[h]? = none := by
  cases hc : s.1.changes[h]? with
  | none => rfl
  | some n => exact absurd (hs.changes_known h n hc) (by rw [hh]; simp)

/-- No pair is recorded for an entity without changes. -/
theorem joint_of_uncounted (hs : Sound s) {a b : Handle}
    (hab : s.1.changes[a]? = none ∨ s.1.changes[b]? = none) : s.1.joint.get? a b = none := by
  cases hj : s.1.joint.get? a b with
  | none => rfl
  | some n =>
    -- a recorded pair has the counts of both its entities for bounds
    rcases hab with ha | hb
    · obtain ⟨-, k, hk, -⟩ := hs.joint_bound a b n hj
      rw [ha] at hk
      cases hk
    · obtain ⟨-, k, hk, -⟩ := hs.joint_bound b a n (hs.joint_symm a b ▸ hj)
      rw [hb] at hk
      cases hk

/-- A handle just given stands for nothing that was counted, so no count changes. -/
theorem changeCount_edit (hs : Sound s) (id x : QualifiedId) :
    (ChangeCounter.edit s id).1.changeCount x = s.1.changeCount x := by
  rw [changeCount_eq, changeCount_eq]
  show (((s.1.interner.intern id).2.get? x).bind fun h => s.1.changes[h]?).getD 0 = _
  rw [Interner.bind_get?_intern]
  exact hs.changes_of_unknown (Interner.resolve?_size _)

/-- Taking up an entity changes no joint count. -/
theorem jointCell?_edit (hs : Sound s) (id x y : QualifiedId) :
    (ChangeCounter.edit s id).1.jointCell? x y = s.1.jointCell? x y := by
  have hnew := hs.changes_of_unknown (Interner.resolve?_size s.1.interner)
  show (((s.1.interner.intern id).2.get? x).bind fun a =>
    ((s.1.interner.intern id).2.get? y).bind fun b => s.1.joint.get? a b) = _
  have hy : ∀ a, (((s.1.interner.intern id).2.get? y).bind fun b => s.1.joint.get? a b) =
      (s.1.interner.get? y).bind fun b => s.1.joint.get? a b :=
    fun a => Interner.bind_get?_intern _ _ _ (hs.joint_of_uncounted (Or.inr hnew))
  -- the inner lookup is as before, and so the outer one is
  simp only [hy]
  refine Interner.bind_get?_intern _ _ _ ?_
  cases s.1.interner.get? y with
  | none => rfl
  | some b => exact hs.joint_of_uncounted (Or.inl hnew)

/-- Taking up an entity leaves it edited, and no other one that was not. -/
theorem isEdited_edit (hs : Sound s) (id x : QualifiedId) :
    IsEdited (ChangeCounter.edit s id) x ↔ x = id ∨ IsEdited s x := by
  have hx : (ChangeCounter.edit s id).1.interner.get? x =
      if x = id then some (s.1.interner.intern id).1 else s.1.interner.get? x :=
    Interner.get?_intern ..
  by_cases hid : x = id
  · rw [if_pos hid] at hx
    rw [isEdited_of_get? hx, mem_edit]
    simp [hid]
  · rw [if_neg hid] at hx
    simp only [IsEdited, hx, mem_edit, hid, false_or]
    -- the handle of another id is not the one given to `id`
    refine exists_congr fun h => and_congr_right fun hh => or_iff_right fun he => ?_
    exact hid (hs.interner.eq_of_get?_eq_intern (he ▸ hh))

/-! ## A removed node -/

/-- Handles to forget are those of entities below that have a count or are edited. -/
theorem mem_countedWithin (s : ChangeCounter × EditedSet) (outer : QualifiedId) (h : Handle) :
    h ∈ countedWithin s outer ↔
      ((s.1.changes[h]?).isSome ∨ h ∈ s.2) ∧
        ∃ x, s.1.interner.resolve? h = some x ∧ x.isWithin outer = true := by
  unfold countedWithin
  rw [List.mem_filter, List.mem_append, Std.ExtTreeMap.mem_keys, Std.ExtTreeSet.mem_toList,
    Std.ExtTreeMap.mem_iff_isSome_getElem?]
  refine and_congr_right fun _ => ?_
  cases s.1.interner.resolve? h with
  | none => simp
  | some x => simp

/-- A counted or edited entity is forgotten exactly if it is within the removed node. -/
theorem mem_countedWithin_iff (hs : Sound s) (outer : QualifiedId) {x : QualifiedId} {h : Handle}
    (hx : s.1.interner.get? x = some h) (hh : (s.1.changes[h]?).isSome ∨ h ∈ s.2) :
    h ∈ countedWithin s outer ↔ x.isWithin outer = true := by
  have hr := (hs.interner x h).mp hx
  rw [mem_countedWithin, hr]
  constructor
  · rintro ⟨-, y, hy, hw⟩
    cases hy
    exact hw
  · exact fun hw => ⟨hh, x, rfl, hw⟩

/-- Behind a removal the entities below have no changes, all others keep theirs. -/
theorem changeCount_foldl_forget (hs : Sound s) (outer x : QualifiedId) :
    ((countedWithin s outer).foldl forget s).1.changeCount x =
      if x.isWithin outer then 0 else s.1.changeCount x := by
  rw [changeCount_eq, changeCount_eq, foldl_forget_interner]
  cases hx : s.1.interner.get? x with
  | none => simp
  | some h =>
    obtain ⟨hc, -, -⟩ := ChangeCounter.foldl_forget (countedWithin s outer) s hs.joint_symm
    simp only [Option.bind_some, hc]
    -- without a count there is nothing to forget
    by_cases hsome : (s.1.changes[h]?).isSome
    · simp only [hs.mem_countedWithin_iff outer hx (Or.inl hsome)]
      split <;> rfl
    · rw [Option.not_isSome_iff_eq_none] at hsome
      rw [hsome]
      split <;> split <;> rfl

/-- Behind a removal the entities below have no joint changes, all others keep theirs. -/
theorem jointCell?_foldl_forget (hs : Sound s) (outer x y : QualifiedId) :
    ((countedWithin s outer).foldl forget s).1.jointCell? x y =
      if x.isWithin outer ∨ y.isWithin outer then none else s.1.jointCell? x y := by
  unfold jointCell?
  rw [foldl_forget_interner]
  cases hx : s.1.interner.get? x with
  | none => simp
  | some a =>
    cases hy : s.1.interner.get? y with
    | none => simp
    | some b =>
      obtain ⟨-, hj, -⟩ := ChangeCounter.foldl_forget (countedWithin s outer) s hs.joint_symm
      simp only [Option.bind_some, hj]
      by_cases hab : (s.1.changes[a]?).isSome ∧ (s.1.changes[b]?).isSome
      · simp only [hs.mem_countedWithin_iff outer hx (Or.inl hab.1),
          hs.mem_countedWithin_iff outer hy (Or.inl hab.2)]
      -- an entity that is not counted has no pairs to lose
      · have hnone : s.1.joint.get? a b = none := by
          refine hs.joint_of_uncounted ?_
          rw [not_and_or, Option.not_isSome_iff_eq_none, Option.not_isSome_iff_eq_none] at hab
          exact hab
        rw [hnone]
        split <;> split <;> rfl

/-- Behind a removal the entities below are not edited any more. -/
theorem isEdited_foldl_forget (hs : Sound s) (outer x : QualifiedId) :
    IsEdited ((countedWithin s outer).foldl forget s) x ↔
      IsEdited s x ∧ x.isWithin outer = false := by
  obtain ⟨-, -, he⟩ := ChangeCounter.foldl_forget (countedWithin s outer) s hs.joint_symm
  simp only [IsEdited, foldl_forget_interner, he]
  constructor
  · rintro ⟨h, hx, hnot, hmem⟩
    rw [hs.mem_countedWithin_iff outer hx (Or.inr hmem)] at hnot
    exact ⟨⟨h, hx, hmem⟩, by simpa using hnot⟩
  · rintro ⟨⟨h, hx, hmem⟩, hout⟩
    refine ⟨h, hx, ?_, hmem⟩
    rw [hs.mem_countedWithin_iff outer hx (Or.inr hmem), hout]
    simp

end Sound

/-! ## The count at the end of a revision -/

/-- An entity that was never met is not among the edited ones. -/
theorem not_mem_of_get?_eq_none {c : ChangeCounter} {edited : EditedSet}
    {E : Finset QualifiedId} (hE : ∀ x, IsEdited (c, edited) x ↔ x ∈ E) {x : QualifiedId}
    (hx : c.interner.get? x = none) : x ∉ E := by
  intro hm
  obtain ⟨h, hh, -⟩ := (hE x).mpr hm
  exact Option.some_ne_none h (hh.symm.trans hx)

/-- Counting a revision raises the counts of the entities that it left edited. -/
theorem changeCount_count {c : ChangeCounter} {edited : EditedSet} {E : Finset QualifiedId}
    (hE : ∀ x, IsEdited (c, edited) x ↔ x ∈ E) (files : Nat) (x : QualifiedId) :
    (c.count edited files).changeCount x = c.changeCount x + if x ∈ E then 1 else 0 := by
  rw [changeCount_eq, changeCount_eq, count_interner]
  cases hx : c.interner.get? x with
  | none => simp [not_mem_of_get?_eq_none hE hx]
  | some h =>
    simp only [Option.bind_some, count_changes, ← hE x,
      isEdited_of_get? (show (c, edited).1.interner.get? x = some h from hx)]
    split <;> simp [raise]

/-- Counting a revision raises the cells of the pairs that it left edited, unless it is a bulk
change. -/
theorem jointCell?_count {c : ChangeCounter} {edited : EditedSet} {E : Finset QualifiedId}
    (hc : c.interner.Valid) (hE : ∀ x, IsEdited (c, edited) x ↔ x ∈ E) (files : Nat)
    {x y : QualifiedId} (hxy : x ≠ y) :
    (c.count edited files).jointCell? x y =
      if files ≤ c.maxChangeSet ∧ x ∈ E ∧ y ∈ E then raise (c.jointCell? x y)
      else c.jointCell? x y := by
  unfold jointCell?
  rw [count_interner]
  cases hx : c.interner.get? x with
  | none => simp [not_mem_of_get?_eq_none hE hx]
  | some a =>
    cases hy : c.interner.get? y with
    | none => simp [not_mem_of_get?_eq_none hE hy]
    | some b =>
      have hab : a ≠ b := fun h => hxy (hc.get?_injective hx (h ▸ hy))
      simp only [Option.bind_some, count_joint, ← hE x, ← hE y,
        isEdited_of_get? (show (c, edited).1.interner.get? x = some a from hx),
        isEdited_of_get? (show (c, edited).1.interner.get? y = some b from hy)]
      simp [hab]

/-! ## The edits of a revision -/

/-- What the edits `es` do to a count `s`, giving `s'`. -/
structure Visited (es : List Edit) (s s' : ChangeCounter × EditedSet) : Prop where
  sound : Sound s → Sound s'
  languages : s'.1.languages = s.1.languages
  maxChangeSet : s'.1.maxChangeSet = s.1.maxChangeSet
  tree : s'.1.tree = es.foldl SourceTree.after s.1.tree
  changes : Sound s → ∀ x, s'.1.changeCount x =
    if es.any (·.removes x) then 0 else s.1.changeCount x
  joint : Sound s → ∀ x y, s'.1.jointCell? x y =
    if es.any (·.removes x) ∨ es.any (·.removes y) then none else s.1.jointCell? x y
  edited : Sound s → ∀ E : Finset QualifiedId, (∀ x, IsEdited s x ↔ x ∈ E) →
    ∀ x, IsEdited s' x ↔ x ∈ editedBy s.1.languages s.1.tree E es

namespace Visited

/-- No edits change nothing. -/
theorem refl (s : ChangeCounter × EditedSet) : Visited [] s s where
  sound := id
  languages := rfl
  maxChangeSet := rfl
  tree := rfl
  changes _ x := rfl
  joint _ x y := by simp
  edited _ E hE := hE

/-- What some edits do and what others do behind them makes up what all of them do. -/
theorem trans {es fs : List Edit} {s₁ s₂ s₃ : ChangeCounter × EditedSet}
    (h₁ : Visited es s₁ s₂) (h₂ : Visited fs s₂ s₃) : Visited (es ++ fs) s₁ s₃ where
  sound hs := h₂.sound (h₁.sound hs)
  languages := h₂.languages.trans h₁.languages
  maxChangeSet := h₂.maxChangeSet.trans h₁.maxChangeSet
  tree := by rw [h₂.tree, h₁.tree, List.foldl_append]
  changes hs x := by
    rw [h₂.changes (h₁.sound hs), h₁.changes hs, List.any_append]
    cases es.any (·.removes x) <;> cases fs.any (·.removes x) <;> rfl
  joint hs x y := by
    rw [h₂.joint (h₁.sound hs), h₁.joint hs, List.any_append, List.any_append]
    cases es.any (·.removes x) <;> cases fs.any (·.removes x) <;>
      cases es.any (·.removes y) <;> cases fs.any (·.removes y) <;> simp
  edited hs E hE x := by
    have h := h₂.edited (h₁.sound hs) _ (h₁.edited hs E hE) x
    rw [h₁.tree, h₁.languages] at h
    rw [editedBy_append]
    exact h

end Visited

/-- Editing and forgetting any number of entities touch neither the settings nor the tree. -/
theorem foldl_setting {α : Type} {f : ChangeCounter × EditedSet → α → ChangeCounter × EditedSet}
    (hf : ∀ s a, (f s a).1.languages = s.1.languages ∧
      (f s a).1.maxChangeSet = s.1.maxChangeSet ∧ (f s a).1.tree = s.1.tree) :
    ∀ (as : List α) (s : ChangeCounter × EditedSet),
      (as.foldl f s).1.languages = s.1.languages ∧
      (as.foldl f s).1.maxChangeSet = s.1.maxChangeSet ∧ (as.foldl f s).1.tree = s.1.tree
  | [], _ => ⟨rfl, rfl, rfl⟩
  | a :: as, s => by
    obtain ⟨hl, hm, ht⟩ := foldl_setting hf as (f s a)
    obtain ⟨hl', hm', ht'⟩ := hf s a
    exact ⟨hl.trans hl', hm.trans hm', ht.trans ht'⟩

/-- Editing any number of entities changes no count. -/
theorem foldl_edit_counts (ids : List QualifiedId) {s : ChangeCounter × EditedSet}
    (hs : Sound s) :
    (∀ x, (ids.foldl edit s).1.changeCount x = s.1.changeCount x) ∧
    (∀ x y, (ids.foldl edit s).1.jointCell? x y = s.1.jointCell? x y) ∧
    (∀ x, IsEdited (ids.foldl edit s) x ↔ IsEdited s x ∨ x ∈ ids) := by
  induction ids generalizing s with
  | nil => simp
  | cons id ids ih =>
    obtain ⟨hc, hj, he⟩ := ih (hs.edit id)
    refine ⟨fun x => ?_, fun x y => ?_, fun x => ?_⟩
    · rw [List.foldl_cons, hc, hs.changeCount_edit]
    · rw [List.foldl_cons, hj, hs.jointCell?_edit]
    · rw [List.foldl_cons, he, hs.isEdited_edit, List.mem_cons]
      tauto

/-- Adding a node succeeds exactly if the node can be walked; what is tracked of it is edited. -/
theorem visit_addNode (s : ChangeCounter × EditedSet) (id : QualifiedId) (node : SourceNode) :
    visit s (.addNode id node) =
      match node.walk id with
      | .error why => .error why
      | .ok nodes =>
        .ok ((Edit.tracked s.1.languages nodes).foldl edit
          ({ s.1 with tree := s.1.tree.after (.addNode id node) }, s.2)) := by
  cases hw : node.walk id with
  | error why => simp only [visit, SourceTree.add, hw]
  | ok nodes =>
    simp only [visit, SourceTree.after, SourceTree.apply, SourceTree.add, hw, Except.map,
      Edit.tracked, List.filter_map, List.map_map]
    rfl

/-- An added subtree: what of it is tracked is edited, and no count changes. -/
theorem visit_addNode_counts {s s' : ChangeCounter × EditedSet} {id : QualifiedId}
    {node : SourceNode} (hs : Sound s) (hv : visit s (.addNode id node) = .ok s') :
    (∀ x, s'.1.changeCount x = s.1.changeCount x) ∧
    (∀ x y, s'.1.jointCell? x y = s.1.jointCell? x y) ∧
    ∃ nodes, node.walk id = .ok nodes ∧
      ∀ x, IsEdited s' x ↔ IsEdited s x ∨ x ∈ Edit.tracked s.1.languages nodes := by
  rw [visit_addNode] at hv
  split at hv
  next => cases hv
  next nodes hw =>
    cases hv
    obtain ⟨hc, hj, he⟩ := foldl_edit_counts (Edit.tracked s.1.languages nodes)
      (hs.withTree (s.1.tree.after (.addNode id node)))
    exact ⟨hc, hj, nodes, hw, he⟩

theorem visit_addNode_visited {s s' : ChangeCounter × EditedSet} {id : QualifiedId}
    {node : SourceNode} (hv : visit s (.addNode id node) = .ok s') :
    Visited [.addNode id node] s s' := by
  have hcounts := fun hs : Sound s => visit_addNode_counts hs hv
  have hsound := fun hs : Sound s => hs.visit hv
  rw [visit_addNode] at hv
  split at hv
  next => cases hv
  next nodes hw =>
    cases hv
    obtain ⟨hl, hm, ht⟩ := foldl_setting (f := edit) (fun _ _ => ⟨rfl, rfl, rfl⟩)
      (Edit.tracked s.1.languages nodes)
      ({ s.1 with tree := s.1.tree.after (.addNode id node) }, s.2)
    refine ⟨hsound, hl, hm, ht, fun hs x => (hcounts hs).1 x, ?_, ?_⟩
    · intro hs x y
      rw [(hcounts hs).2.1, if_neg]
      simp [Edit.removes]
    · intro hs E hE x
      obtain ⟨-, -, nodes', hw', he⟩ := hcounts hs
      rw [hw, Except.ok.injEq] at hw'
      rw [he, ← hw']
      simp only [editedBy, Edit.editedAfter, hw, Finset.mem_union, List.mem_toFinset]
      exact or_congr_left (hE x)

/-- A removed node: what is within it is forgotten, and nothing else changes. -/
theorem visit_removeNode_counts {s s' : ChangeCounter × EditedSet} {id : QualifiedId}
    (hs : Sound s) (hv : visit s (.removeNode id) = .ok s') :
    (∀ x, s'.1.changeCount x = if x.isWithin id then 0 else s.1.changeCount x) ∧
    (∀ x y, s'.1.jointCell? x y =
      if x.isWithin id ∨ y.isWithin id then none else s.1.jointCell? x y) ∧
    ∀ x, IsEdited s' x ↔ IsEdited s x ∧ x.isWithin id = false := by
  cases hv
  have ht := hs.withTree (s.1.tree.remove id)
  exact ⟨ht.changeCount_foldl_forget id, ht.jointCell?_foldl_forget id,
    ht.isEdited_foldl_forget id⟩

theorem visit_removeNode_visited {s s' : ChangeCounter × EditedSet} {id : QualifiedId}
    (hv : visit s (.removeNode id) = .ok s') : Visited [.removeNode id] s s' := by
  have hcounts := fun hs : Sound s => visit_removeNode_counts hs hv
  have hsound := fun hs : Sound s => hs.visit hv
  cases hv
  obtain ⟨hl, hm, ht⟩ := foldl_setting (f := forget) (fun _ _ => ⟨rfl, rfl, rfl⟩)
    (countedWithin ({ s.1 with tree := s.1.tree.remove id }, s.2) id)
    ({ s.1 with tree := s.1.tree.remove id }, s.2)
  refine ⟨hsound, hl, hm, ht, ?_, ?_, ?_⟩
  · intro hs x
    rw [(hcounts hs).1]
    simp only [List.any_cons, List.any_nil, Bool.or_false]
    rfl
  · intro hs x y
    rw [(hcounts hs).2.1]
    simp only [List.any_cons, List.any_nil, Bool.or_false]
    rfl
  · intro hs E hE x
    rw [(hcounts hs).2.2]
    simp only [editedBy, Edit.editedAfter, Finset.mem_filter]
    exact and_congr_left fun _ => hE x

/-- An edited entity: it is edited unless its kind is known not to be tracked. -/
theorem visit_editEntity_visited {s s' : ChangeCounter × EditedSet} {id : QualifiedId}
    (hv : visit s (.editEntity id) = .ok s') : Visited [.editEntity id] s s' := by
  have hcases : (s' = edit s id ∧ ∀ E : Finset QualifiedId,
        Edit.editedAfter s.1.languages s.1.tree E (.editEntity id) = insert id E) ∨
      (s' = s ∧ ∀ E : Finset QualifiedId,
        Edit.editedAfter s.1.languages s.1.tree E (.editEntity id) = E) := by
    simp only [Edit.editedAfter]
    cases hkind : s.1.tree.get? id with
    | some kind =>
      simp only [visit, hkind, Except.ok.injEq] at hv
      by_cases ht : s.1.languages.isTrackable id kind = true
      · rw [if_pos ht] at hv
        exact Or.inl ⟨hv.symm, fun E => if_pos ht⟩
      · rw [if_neg ht] at hv
        exact Or.inr ⟨hv.symm, fun E => if_neg ht⟩
    | none =>
      simp only [visit, hkind, Except.ok.injEq] at hv
      exact Or.inl ⟨hv.symm, fun E => rfl⟩
  rcases hcases with ⟨rfl, hE'⟩ | ⟨rfl, hE'⟩
  · refine ⟨fun hs => hs.edit id, rfl, rfl, rfl, fun hs x => hs.changeCount_edit id x, ?_, ?_⟩
    · intro hs x y
      rw [hs.jointCell?_edit, if_neg]
      simp [Edit.removes]
    · intro hs E hE x
      rw [hs.isEdited_edit, editedBy, hE']
      simp only [editedBy, Finset.mem_insert]
      exact or_congr_right (hE x)
  · refine ⟨fun hs => hs, rfl, rfl, rfl, fun hs x => rfl, ?_, ?_⟩
    · intro hs x y
      rw [if_neg]
      simp [Edit.removes]
    · intro hs E hE x
      rw [editedBy, hE']
      exact hE x

/-- The step: one edit does what the rule says. -/
theorem visit_visited {s s' : ChangeCounter × EditedSet} {e : Edit} (hv : visit s e = .ok s') :
    Visited [e] s s' := by
  cases e with
  | addNode id node => exact visit_addNode_visited hv
  | removeNode id => exact visit_removeNode_visited hv
  | editEntity id => exact visit_editEntity_visited hv

/-- The run: so do all edits of a revision that does not fail. -/
theorem visitAll_visited {s s' : ChangeCounter × EditedSet} (es : List Edit)
    (hv : visitAll s es = (s', none)) : Visited es s s' := by
  induction es generalizing s with
  | nil =>
    cases hv
    exact Visited.refl _
  | cons e es ih =>
    unfold visitAll at hv
    split at hv
    next => cases hv
    next s₁ h₁ => exact (visit_visited h₁).trans (ih hv)

end ChangeCounter

end Cochange
