import Cochange.Proofs.Counting.Leaving

/-!
# Revisions that fail

A revision fails at the first edit that cannot be applied to the tree: one that adds a node which
cannot be walked. That edit does nothing. What the edits in front of it did to the tree stays done,
and what they removed stays forgotten, but nothing is counted (`process_failed`).

The edits in front of the failing one are followed by the law for edits that succeed (`Visited`); it
remains to find the failing one (`visitAll_failed`), and to see that count and tree refuse the same
edits (`tree_visit`).
-/

namespace Cochange

namespace ChangeCounter

variable {s s' : ChangeCounter × EditedSet} {why : IdError}

/-- An edit is refused by the count exactly if it is by the tree, and for the same reason; if it is
not, the tree of the count is the one after the edit. -/
theorem tree_visit (s : ChangeCounter × EditedSet) (e : Edit) :
    (visit s e).map (·.1.tree) = s.1.tree.apply e := by
  cases e with
  | addNode id node =>
    rw [visit_addNode, SourceTree.apply, SourceTree.add, SourceTree.after_addNode]
    cases node.walk id with
    | error why => rfl
    | ok nodes =>
      obtain ⟨-, -, ht⟩ := foldl_setting (f := edit) (fun _ _ => ⟨rfl, rfl, rfl⟩)
        (Edit.tracked s.1.languages nodes) ({ s.1 with tree := _ }, s.2)
      exact congrArg Except.ok ht
  | removeNode id =>
    obtain ⟨-, -, ht⟩ := foldl_setting (f := forget) (fun _ _ => ⟨rfl, rfl, rfl⟩)
      (countedWithin ({ s.1 with tree := s.1.tree.remove id }, s.2) id)
      ({ s.1 with tree := s.1.tree.remove id }, s.2)
    exact congrArg Except.ok ht
  | editEntity id =>
    rw [visit, SourceTree.apply]
    cases s.1.tree.get? id with
    | none => rfl
    | some kind =>
      dsimp only
      split <;> rfl

/-- The edits that the count takes change its tree as they change any other. -/
theorem foldlM_apply_of_visitAll (es : List Edit) {s : ChangeCounter × EditedSet}
    (hv : visitAll s es = (s', none)) : es.foldlM SourceTree.apply s.1.tree = .ok s'.1.tree := by
  induction es generalizing s with
  | nil =>
    cases hv
    rfl
  | cons e es ih =>
    have ht := tree_visit s e
    unfold visitAll at hv
    split at hv
    next => cases hv
    next s₁ h₁ =>
      rw [h₁] at ht
      rw [List.foldlM_cons, ← ht]
      exact ih hv

/-- If some edits fail, then one of them is refused behind those in front of it. -/
theorem visitAll_failed (es : List Edit) {s : ChangeCounter × EditedSet}
    (hv : visitAll s es = (s', some why)) :
    ∃ j e, es[j]? = some e ∧ visitAll s (es.take j) = (s', none) ∧ visit s' e = .error why := by
  induction es generalizing s with
  | nil => cases hv
  | cons e es ih =>
    unfold visitAll at hv
    split at hv
    next why' h =>
      cases hv
      exact ⟨0, e, rfl, rfl, h⟩
    next s₁ h₁ =>
      obtain ⟨j, e', he, hdone, hfail⟩ := ih hv
      refine ⟨j + 1, e', he, ?_, hfail⟩
      rw [List.take_succ_cons, visitAll, h₁]
      exact hdone

/-- In every state of the count, a revision that fails does so at its first edit that the tree
refuses. That edit leaves the count as the edits in front of it did; those have changed the tree,
and what one of them removes has no count and no pair any more. All other counts and pairs are as
before the revision, and no revision is counted, bulk change or not. -/
theorem process_failed (ls : Languages) (limit : Nat) (rs : List Revision) (r : Revision)
    (c : ChangeCounter) (why : IdError)
    (h : ((start ls limit).run rs).process r = (c, some why)) :
    ∃ j e edited, r.edits[j]? = some e ∧
      visitAll ((start ls limit).run rs, ∅) (r.edits.take j) = ((c, edited), none) ∧
      visit (c, edited) e = .error why ∧
      (r.edits.take j).foldlM SourceTree.apply ((start ls limit).run rs).tree = .ok c.tree ∧
      c.tree.apply e = .error why ∧
      (∀ x, c.changeCount x =
        if (r.edits.take j).any (·.removes x) then 0
        else ((start ls limit).run rs).changeCount x) ∧
      (∀ x y, c.jointCell? x y =
        if (r.edits.take j).any (·.removes x) ∨ (r.edits.take j).any (·.removes y) then none
        else ((start ls limit).run rs).jointCell? x y) ∧
      c.revisions = ((start ls limit).run rs).revisions ∧
      c.bulkRevisions = ((start ls limit).run rs).bulkRevisions := by
  have hs : Sound ((start ls limit).run rs, ∅) := (sound_start ls limit).run rs
  unfold process at h
  split at h
  next c' edited why' hfailed =>
    cases h
    obtain ⟨j, e, he, hdone, hfail⟩ := visitAll_failed r.edits hfailed
    have hvisited := visitAll_visited _ hdone
    have htree := tree_visit (c, edited) e
    rw [hfail] at htree
    have htally := visitAll_tally (r.edits.take j) ((start ls limit).run rs, ∅)
    rw [hdone] at htally
    exact ⟨j, e, edited, he, hdone, hfail, foldlM_apply_of_visitAll _ hdone, htree.symm,
      hvisited.changes hs, hvisited.joint hs, congrArg Prod.fst htally, congrArg Prod.snd htally⟩
  next => cases h

/-- Two functions are edited. -/
def editedTwo : List Revision :=
  [.ofEdits [.editEntity sampleF, .editEntity sampleG]]

/-- A third function is edited and one of the two removed. Then a file is put into a file. -/
def refusedRevision : Revision :=
  .ofEdits [.editEntity sampleH, .removeNode sampleF,
    .addNode sampleFile (.file "a.rs" [.file "b.rs" []])]

/-- What the refused revision removed before its failing edit is forgotten, and nothing is counted.
-/
theorem process_failed_midway :
    ∃ c why, ((start {} 3).run editedTwo).process refusedRevision = (c, some why) ∧
      c.changeCount sampleF = 0 ∧ c.changeCount sampleG = 1 ∧ c.changeCount sampleH = 0 ∧
      c.jointCell? sampleF sampleG = none ∧ c.revisions = 1 := by
  have hfails : (((start {} 3).run editedTwo).process refusedRevision).2.isSome = true := by
    decide +kernel
  obtain ⟨why, hwhy⟩ := Option.isSome_iff_exists.mp hfails
  obtain ⟨c, hc⟩ : ∃ c, ((start {} 3).run editedTwo).process refusedRevision = (c, some why) :=
    ⟨_, Prod.ext rfl hwhy⟩
  refine ⟨c, why, hc, ?_⟩
  obtain ⟨j, e, edited, he, -, -, -, hrefused, hcount, hjoint, hrevisions, -⟩ :=
    process_failed {} 3 editedTwo refusedRevision c why hc
  -- the tree refuses neither of the first two edits
  obtain rfl : j = 2 := by
    match j, he with
    | 0, he =>
      cases he
      cases hrefused
    | 1, he =>
      cases he
      cases hrefused
    | 2, _ => rfl
  rw [hcount, hcount, hcount, hjoint, hrevisions]
  decide +kernel

end ChangeCounter

end Cochange
