import Cochange.Proofs.Counting.Edited
import Cochange.Proofs.Tree.Gaps

/-!
# What leaves the tree and what is forgotten

A node leaves the tree when it or a node around it is removed, or when a node around it is added
once more and the new node does not have it. Only the removal makes the count forget it; behind the
addition it is counted as before (`visit_leaving`).

A removal forgets what is within the removed node. That is what is nested in this node, and, if the
node is a member, also the members whose names continue its name behind a `:`
(`visit_removeNode_forgets`).

Both hold in every state in which an edit may find the count: some revisions are done, failed ones
included, and some edits of the next one (`underWay`).
-/

namespace Cochange

namespace SourceTree

variable {t : SourceTree} {id x : QualifiedId}

/-- The nodes that leave with an addition stand in the added node and are not among those added. -/
theorem leaving_addNode (ht : t.Linked) {node : SourceNode}
    {nodes : List (QualifiedId × SourceNode)} (hw : node.walk id = .ok nodes)
    (hx : t.contains x = true) (hx' : (t.after (.addNode id node)).contains x = false) :
    id ∈ x.ancestors ∧ x ∉ nodes.map (·.1) := by
  rw [contains_eq_false_iff, after_addNode, hw] at hx'
  rw [get?_foldl_insertNode, Option.or_eq_none_iff, lastKind_eq_none_iff, List.map_map] at hx'
  obtain ⟨hnot, hremoved⟩ := hx'
  have hbelow : t.Below id x := by
    by_contra hno
    rw [get?_remove_of_not_below ht hno, ← contains_eq_false_iff, hx] at hremoved
    cases hremoved
  refine ⟨hbelow.isNestedIn.resolve_left fun he => hnot ?_, hnot⟩
  obtain ⟨rest, rfl⟩ := SourceNode.exists_of_walk hw
  exact he ▸ List.mem_cons_self

end SourceTree

namespace ChangeCounter

/-! ## States of the count -/

/-- The count after some revisions, going on behind those that fail, and after the edits `es` of
the next one up to the first that fails; and what that one has edited. -/
def underWay (ls : Languages) (limit : Nat) (rs : List Revision) (es : List Edit) :
    ChangeCounter × EditedSet :=
  (visitAll ((start ls limit).run rs, ∅) es).1

theorem sound_underWay (ls : Languages) (limit : Nat) (rs : List Revision) (es : List Edit) :
    Sound (underWay ls limit rs es) :=
  ((sound_start ls limit).run rs).visitAll es

/-! ### The tree -/

section Kept

variable {P : SourceTree → Prop} {s s' : ChangeCounter × EditedSet}

/-- The count changes its tree by edits only. -/
theorem kept_visit (hP : SourceTree.Kept P) (hs : P s.1.tree) {e : Edit}
    (hv : visit s e = .ok s') : P s'.1.tree := by
  rw [(visit_visited hv).tree]
  exact hP.after hs e

/-- What operations on trees keep, the edits of a revision keep, up to one that fails. -/
theorem kept_visitAll (hP : SourceTree.Kept P) (es : List Edit) :
    ∀ {s : ChangeCounter × EditedSet}, P s.1.tree → P (visitAll s es).1.1.tree := by
  induction es with
  | nil => exact fun hs => hs
  | cons e es ih =>
    intro s hs
    unfold visitAll
    split
    next => exact hs
    next s' hv => exact ih (kept_visit hP hs hv)

theorem kept_process (hP : SourceTree.Kept P) {c : ChangeCounter} (hc : P c.tree) (r : Revision) :
    P (c.process r).1.tree := by
  have hv := kept_visitAll hP r.edits (s := (c, ∅)) hc
  unfold process
  split
  next c' edited why heq =>
    rw [heq] at hv
    exact hv
  next c' edited heq =>
    rw [heq] at hv
    show P (c'.count edited r.changeSet.size).tree
    rw [(count_setting c' edited r.changeSet.size).2.2]
    exact hv

/-- What operations on trees keep, every history keeps. -/
theorem kept_run (hP : SourceTree.Kept P) (rs : List Revision) :
    ∀ {c : ChangeCounter}, P c.tree → P (c.run rs).tree := by
  induction rs with
  | nil => exact fun hc => hc
  | cons r rs ih => exact fun hc => ih (kept_process hP hc r)

end Kept

theorem linked_underWay (ls : Languages) (limit : Nat) (rs : List Revision) (es : List Edit) :
    (underWay ls limit rs es).1.tree.Linked :=
  kept_visitAll SourceTree.kept_linked es
    (kept_run SourceTree.kept_linked rs SourceTree.linked_empty)

/-! ## Forgotten entities -/

variable {s s' : ChangeCounter × EditedSet} {id x : QualifiedId}

/-- Whether nothing is known of an entity: its handle, if it has one, has no count, no cell in
either orientation and no place among what is edited. -/
def Forgotten (s : ChangeCounter × EditedSet) (x : QualifiedId) : Prop :=
  ∀ h, s.1.interner.get? x = some h →
    s.1.changes[h]? = none ∧
    (∀ k, s.1.joint.get? h k = none ∧ s.1.joint.get? k h = none) ∧ h ∉ s.2

/-- Nothing is known of an entity that has no changes and is not edited. -/
theorem forgotten_iff (hs : Sound s) : Forgotten s x ↔ s.1.changeCount x = 0 ∧ ¬IsEdited s x := by
  constructor
  · intro h
    constructor
    · rw [changeCount_eq]
      cases hx : s.1.interner.get? x with
      | none => rfl
      | some k => rw [Option.bind_some, (h k hx).1, Option.getD_none]
    · intro ⟨k, hk, hmem⟩
      exact (h k hk).2.2 hmem
  · intro ⟨hcount, hedited⟩ h hh
    -- counts are never zero, so there is none
    have hnone : s.1.changes[h]? = none := by
      cases hc : s.1.changes[h]? with
      | none => rfl
      | some n =>
        have hpos := (hs.changes_bound h n hc).1
        rw [changeCount_eq, hh, Option.bind_some, hc, Option.getD_some] at hcount
        omega
    refine ⟨hnone, fun k => ?_, fun hmem => hedited ⟨h, hh, hmem⟩⟩
    exact ⟨hs.joint_of_uncounted (Or.inl hnone), hs.joint_of_uncounted (Or.inr hnone)⟩

/-- A removal leaves nothing known of the entities below. -/
theorem forgotten_of_isWithin (hs : Sound s) (hv : visit s (.removeNode id) = .ok s')
    (hx : x.isWithin id = true) : Forgotten s' x := by
  obtain ⟨hc, -, he⟩ := visit_removeNode_counts hs hv
  refine (forgotten_iff (hs.visit hv)).mpr ⟨?_, fun hedited => ?_⟩
  · rw [hc, if_pos hx]
  · have hout := ((he x).mp hedited).2
    rw [hx] at hout
    cases hout

/-- In every state of the count, a node that leaves the tree with an edit was either removed, and
nothing is known of it any more, or stood in a node that was added once more, and all that was known
of it still is. -/
theorem visit_leaving (ls : Languages) (limit : Nat) (rs : List Revision) (es : List Edit) (e : Edit)
    (s' : ChangeCounter × EditedSet) (hv : visit (underWay ls limit rs es) e = .ok s')
    (x : QualifiedId) (hx : (underWay ls limit rs es).1.tree.contains x = true)
    (hx' : s'.1.tree.contains x = false) :
    (∃ id, e = .removeNode id ∧ x.IsNestedIn id ∧ Forgotten s' x) ∨
    ∃ id node, e = .addNode id node ∧ id ∈ x.ancestors ∧
      s'.1.changeCount x = (underWay ls limit rs es).1.changeCount x ∧
      (∀ y, s'.1.jointCell? x y = (underWay ls limit rs es).1.jointCell? x y) ∧
      (IsEdited s' x ↔ IsEdited (underWay ls limit rs es) x) := by
  have hs := sound_underWay ls limit rs es
  have ht := linked_underWay ls limit rs es
  have htree : s'.1.tree = (underWay ls limit rs es).1.tree.after e := (visit_visited hv).tree
  rw [htree] at hx'
  cases e with
  | addNode id node =>
    right
    obtain ⟨hc, hj, nodes, hw, he⟩ := visit_addNode_counts hs hv
    obtain ⟨hanc, hnot⟩ := SourceTree.leaving_addNode ht hw hx hx'
    refine ⟨id, node, rfl, hanc, hc x, hj x, (he x).trans (or_iff_left fun hmem => hnot ?_)⟩
    obtain ⟨n, hn, hnx⟩ := List.mem_map.mp hmem
    exact List.mem_map.mpr ⟨n, (List.mem_filter.mp hn).1, hnx⟩
  | removeNode id =>
    left
    have hnested : x.IsNestedIn id := by
      by_contra hno
      have hstays := (SourceTree.contains_remove ht).mpr
        ⟨hx, fun hbelow => hno hbelow.isNestedIn⟩
      exact Bool.false_ne_true (hx'.symm.trans hstays)
    exact ⟨id, rfl, hnested,
      forgotten_of_isWithin hs hv (QualifiedId.isWithin_iff.mpr (Or.inl hnested))⟩
  | editEntity id => exact absurd (hx'.symm.trans hx) Bool.false_ne_true

/-- A type with a method. -/
def methodHistory : List Revision :=
  [.ofEdits [.addNode SourceTree.sampleType (.ofMembers "A" [.ofSignature "f()"])]]

/-- The type once more, without the method. -/
def sampleReplacement : Edit :=
  .addNode SourceTree.sampleType (.ofMembers "A" [])

/-- The replacement succeeds, and the method leaves the tree with it. -/
theorem exists_visit_replacement :
    ∃ s', visit (underWay {} 100 methodHistory []) sampleReplacement = .ok s' ∧
      s'.1.tree.contains SourceTree.sampleMethod = false := by
  have hleft : ((visit (underWay {} 100 methodHistory []) sampleReplacement).toOption.map
      fun s' => s'.1.tree.contains SourceTree.sampleMethod) = some false := by decide +kernel
  exact exists_ok hleft

theorem contains_sampleMethod :
    (underWay {} 100 methodHistory []).1.tree.contains SourceTree.sampleMethod = true := by
  decide +kernel

/-- The method leaves the tree with the replacement and is counted as before. -/
theorem visit_leaving_method :
    ∃ s', visit (underWay {} 100 methodHistory []) sampleReplacement = .ok s' ∧
      s'.1.tree.contains SourceTree.sampleMethod = false ∧
      s'.1.changeCount SourceTree.sampleMethod = 1 := by
  obtain ⟨s', hv, hx'⟩ := exists_visit_replacement
  refine ⟨s', hv, hx', ?_⟩
  rcases visit_leaving {} 100 methodHistory [] sampleReplacement s' hv SourceTree.sampleMethod
    contains_sampleMethod hx' with ⟨id, he, -⟩ | ⟨id, node, -, -, hcount, -⟩
  · cases he
  · rw [hcount]
    decide +kernel

/-- Leaving the tree is not enough to be forgotten. -/
theorem leaving_not_forgotten : ¬∀ (ls : Languages) (limit : Nat) (rs : List Revision)
    (es : List Edit) (e : Edit) (s' : ChangeCounter × EditedSet),
    visit (underWay ls limit rs es) e = .ok s' → ∀ x : QualifiedId,
      (underWay ls limit rs es).1.tree.contains x = true → s'.1.tree.contains x = false →
      Forgotten s' x := by
  intro h
  obtain ⟨s', hv, hx'⟩ := exists_visit_replacement
  have hforgotten := h {} 100 methodHistory [] sampleReplacement s' hv SourceTree.sampleMethod
    contains_sampleMethod hx'
  have hs := sound_underWay {} 100 methodHistory []
  have hzero := ((forgotten_iff (hs.visit hv)).mp hforgotten).1
  rw [(visit_addNode_counts hs hv).1] at hzero
  exact absurd hzero (by decide +kernel)

/-! ## Removed nodes -/

/-- In every state of the count, removing a node forgets what is within it by its text and nothing
else. That is what is nested in it, and the members that continue it although they are not. -/
theorem visit_removeNode_forgets (ls : Languages) (limit : Nat) (rs : List Revision)
    (es : List Edit) (a : QualifiedId) :
    (∀ x : QualifiedId, x.isWithin a = true ↔ x.IsNestedIn a ∨ x.Continues a) ∧
    (∀ x : QualifiedId, x.Continues a → ¬x.IsNestedIn a) ∧
    ∃ s', visit (underWay ls limit rs es) (.removeNode a) = .ok s' ∧
      (∀ x : QualifiedId, x.IsNestedIn a ∨ x.Continues a → Forgotten s' x) ∧
      ∀ x : QualifiedId, ¬(x.IsNestedIn a ∨ x.Continues a) →
        s'.1.changeCount x = (underWay ls limit rs es).1.changeCount x ∧
        (IsEdited s' x ↔ IsEdited (underWay ls limit rs es) x) ∧
        ∀ y : QualifiedId, ¬(y.IsNestedIn a ∨ y.Continues a) →
          s'.1.jointCell? x y = (underWay ls limit rs es).1.jointCell? x y := by
  have hs := sound_underWay ls limit rs es
  obtain ⟨s', hv⟩ : ∃ s', visit (underWay ls limit rs es) (.removeNode a) = .ok s' := ⟨_, rfl⟩
  obtain ⟨hc, hj, he⟩ := visit_removeNode_counts hs hv
  refine ⟨fun x => QualifiedId.isWithin_iff, fun x => QualifiedId.Continues.not_isNestedIn, s', hv,
    fun x hx => forgotten_of_isWithin hs hv (QualifiedId.isWithin_iff.mpr hx), ?_⟩
  intro x hx
  rw [← QualifiedId.isWithin_iff] at hx
  refine ⟨?_, ?_, fun y hy => ?_⟩
  · rw [hc, if_neg hx]
  · rw [he, Bool.eq_false_iff]
    exact and_iff_left hx
  · rw [← QualifiedId.isWithin_iff] at hy
    rw [hj, if_neg (not_or.mpr ⟨hx, hy⟩)]

/-- A variable. -/
def sampleStd : QualifiedId :=
  .inFile "lib.cpp" "std" (by decide) (by decide)

/-- A function whose name continues that of the variable. -/
def sampleSwap : QualifiedId :=
  .inFile "lib.cpp" "std::swap()" (by decide) (by decide)

/-- The function is within the variable by its text, while both stand directly in the file. -/
theorem isWithin_not_nested :
    ¬∀ x a : QualifiedId, x.isWithin a = true ↔ a = x ∨ a ∈ x.ancestors := by
  intro h
  have hparent : sampleSwap.parent? = some (.ofPath sampleSwap.path) := by decide
  have hnested := (h sampleSwap sampleStd).mp (by decide)
  rw [QualifiedId.ancestors_of_parent? hparent,
    QualifiedId.ancestors_of_parent?_eq_none (by decide)] at hnested
  exact absurd hnested (by decide)

end ChangeCounter

end Cochange
