import Cochange.Proofs.Contexts.Listing

/-!
# Counts with different limits

Which revisions are bulk changes decides about the pairs and nothing else. So two counts of one
history, one with a smaller limit than the other, go in step (`InStep`): they have the same tree,
the same handles, the same changes and the same entities edited, and each joint change of the first
is one of the second. An entity that is forgotten loses its row and its column in both, so removals
keep this; a revision that counts for the first counts for the second.

The couplings follow: with the same changes on both sides, more joint changes are a stronger
coupling (`ratio_mono`).

Main result: `limit_monotone`.
-/

namespace Cochange

namespace ChangeCounter

variable {s s' : ChangeCounter × EditedSet} {c c' : ChangeCounter}

/-! ## Cells -/

/-- A cell that is recorded only if the other one is, and does not hold more. -/
def AtMost (n m : Option Nat) : Prop :=
  ∀ k, n = some k → ∃ l, m = some l ∧ k ≤ l

/-- No cell is at most any. -/
theorem atMost_none (m : Option Nat) : AtMost none m := by
  intro k hk
  cases hk

/-- The order of cells is that of the numbers they stand for. -/
theorem AtMost.getD {n m : Option Nat} (h : AtMost n m) : n.getD 0 ≤ m.getD 0 := by
  cases n with
  | none => exact Nat.zero_le _
  | some k =>
    obtain ⟨l, rfl, hle⟩ := h k rfl
    exact hle

/-- Raising both keeps the order. -/
theorem AtMost.raise {n m : Option Nat} (h : AtMost n m) :
    AtMost (ChangeCounter.raise n) (ChangeCounter.raise m) := by
  intro k hk
  cases hk
  exact ⟨_, rfl, Nat.succ_le_succ h.getD⟩

/-- Raising the larger one keeps the order. -/
theorem AtMost.raise_right {n m : Option Nat} (h : AtMost n m) :
    AtMost n (ChangeCounter.raise m) := by
  intro k hk
  obtain ⟨l, rfl, hle⟩ := h k hk
  exact ⟨_, rfl, Nat.le_succ_of_le hle⟩

/-! ## Counts in step -/

/-- Two counts of the same revisions, of which the second has a limit that is not smaller. -/
structure InStep (s s' : ChangeCounter × EditedSet) : Prop where
  sound : Sound s
  sound' : Sound s'
  limit : s.1.maxChangeSet ≤ s'.1.maxChangeSet
  languages : s'.1.languages = s.1.languages
  tree : s'.1.tree = s.1.tree
  interner : s'.1.interner = s.1.interner
  changes : s'.1.changes = s.1.changes
  revisions : s'.1.revisions = s.1.revisions
  bulkRevisions : s'.1.bulkRevisions ≤ s.1.bulkRevisions
  edited : s'.2 = s.2
  joint : ∀ x y, AtMost (s.1.joint.get? x y) (s'.1.joint.get? x y)

/-- Two counters that have seen nothing are in step. -/
theorem inStep_start (languages : Languages) {M M' : Nat} (hM : M ≤ M') :
    InStep (start languages M, ∅) (start languages M', ∅) where
  sound := sound_start languages M
  sound' := sound_start languages M'
  limit := hM
  languages := rfl
  tree := rfl
  interner := rfl
  changes := rfl
  revisions := rfl
  bulkRevisions := Nat.le_refl _
  edited := rfl
  joint x y := by
    show AtMost ((SparseMatrix.empty : SparseMatrix Nat).get? x y) _
    rw [SparseMatrix.get?_empty]
    exact atMost_none _

namespace InStep

/-- The same change of both trees keeps counters in step. -/
theorem withTree (h : InStep s s') (tree : SourceTree) :
    InStep ({ s.1 with tree }, s.2) ({ s'.1 with tree }, s'.2) :=
  ⟨h.sound.withTree tree, h.sound'.withTree tree, h.limit, h.languages, rfl, h.interner, h.changes,
    h.revisions, h.bulkRevisions, h.edited, h.joint⟩

/-- What is edited can be given up in both. -/
theorem drop (h : InStep s s') : InStep (s.1, ∅) (s'.1, ∅) :=
  ⟨h.sound.drop, h.sound'.drop, h.limit, h.languages, h.tree, h.interner, h.changes, h.revisions,
    h.bulkRevisions, rfl, h.joint⟩

/-- With the same handles an entity gets the same one. -/
theorem edit (h : InStep s s') (id : QualifiedId) :
    InStep (ChangeCounter.edit s id) (ChangeCounter.edit s' id) where
  sound := h.sound.edit id
  sound' := h.sound'.edit id
  limit := h.limit
  languages := h.languages
  tree := h.tree
  interner := by
    show (s'.1.interner.intern id).2 = (s.1.interner.intern id).2
    rw [h.interner]
  changes := h.changes
  revisions := h.revisions
  bulkRevisions := h.bulkRevisions
  edited := by
    show s'.2.insert (s'.1.interner.intern id).1 = s.2.insert (s.1.interner.intern id).1
    rw [h.interner, h.edited]
  joint := h.joint

/-- Taking up the same entities keeps counters in step. -/
theorem foldl_edit (ids : List QualifiedId) : ∀ {s s' : ChangeCounter × EditedSet}, InStep s s' →
    InStep (ids.foldl ChangeCounter.edit s) (ids.foldl ChangeCounter.edit s') := by
  induction ids with
  | nil => exact fun h => h
  | cons id ids ih => exact fun h => ih (h.edit id)

/-- The row and the column of a forgotten entity go in both matrices. -/
theorem forget (h : InStep s s') (k : Handle) :
    InStep (ChangeCounter.forget s k) (ChangeCounter.forget s' k) where
  sound := h.sound.foldl_forget [k]
  sound' := h.sound'.foldl_forget [k]
  limit := h.limit
  languages := h.languages
  tree := h.tree
  interner := h.interner
  changes := congrArg (·.erase k) h.changes
  revisions := h.revisions
  bulkRevisions := h.bulkRevisions
  edited := congrArg (·.erase k) h.edited
  joint x y := by
    show AtMost ((s.1.joint.removeEntity k).get? x y) ((s'.1.joint.removeEntity k).get? x y)
    have hsymm : s.1.joint.Symmetric := h.sound.joint_symm
    have hsymm' : s'.1.joint.Symmetric := h.sound'.joint_symm
    rw [hsymm.mirrored.get?_removeEntity, hsymm'.mirrored.get?_removeEntity]
    split
    next => exact atMost_none none
    next => exact h.joint x y

/-- Forgetting the same entities keeps counters in step. -/
theorem foldl_forget (hs : List Handle) : ∀ {s s' : ChangeCounter × EditedSet}, InStep s s' →
    InStep (hs.foldl ChangeCounter.forget s) (hs.foldl ChangeCounter.forget s') := by
  induction hs with
  | nil => exact fun h => h
  | cons k hs ih => exact fun h => ih (h.forget k)

/-- Counters in step have the same entities to forget. -/
theorem countedWithin (h : InStep s s') (outer : QualifiedId) :
    ChangeCounter.countedWithin s' outer = ChangeCounter.countedWithin s outer := by
  unfold ChangeCounter.countedWithin
  rw [h.changes, h.edited, h.interner]

end InStep

/-! ## The step -/

/-- That both counts go on in step, or end with the same error. -/
def StayInStep (r r' : Except IdError (ChangeCounter × EditedSet)) : Prop :=
  match r, r' with
  | .ok s, .ok s' => InStep s s'
  | .error why, .error why' => why = why'
  | _, _ => False

/-- An edit does not ask for the limit. -/
theorem InStep.visit (h : InStep s s') (e : Edit) :
    StayInStep (ChangeCounter.visit s e) (ChangeCounter.visit s' e) := by
  cases e with
  | addNode id node =>
    rw [visit_addNode, visit_addNode, h.languages, h.tree]
    cases node.walk id with
    | error why => rfl
    | ok nodes => exact foldl_edit _ (h.withTree _)
  | removeNode id =>
    have htree := h.withTree (s.1.tree.remove id)
    show InStep (List.foldl _ _ (ChangeCounter.countedWithin _ id))
      (List.foldl _ _ (ChangeCounter.countedWithin _ id))
    rw [h.tree, htree.countedWithin id]
    exact foldl_forget _ htree
  | editEntity id =>
    rw [ChangeCounter.visit, ChangeCounter.visit, h.tree, h.languages]
    cases s.1.tree.get? id with
    | none => exact h.edit id
    | some kind =>
      dsimp only
      split
      next => exact h.edit id
      next => exact h

/-- The edits of a revision fail at the same place or not at all. -/
theorem InStep.visitAll (h : InStep s s') (es : List Edit) :
    InStep (ChangeCounter.visitAll s es).1 (ChangeCounter.visitAll s' es).1 ∧
      (ChangeCounter.visitAll s' es).2 = (ChangeCounter.visitAll s es).2 := by
  induction es generalizing s s' with
  | nil => exact ⟨h, rfl⟩
  | cons e es ih =>
    have hvisit := h.visit e
    unfold ChangeCounter.visitAll
    cases hv : ChangeCounter.visit s e with
    | error why =>
      cases hv' : ChangeCounter.visit s' e with
      | error why' =>
        rw [hv, hv'] at hvisit
        exact ⟨h, congrArg some hvisit.symm⟩
      | ok s₁' =>
        rw [hv, hv'] at hvisit
        exact hvisit.elim
    | ok s₁ =>
      cases hv' : ChangeCounter.visit s' e with
      | error why' =>
        rw [hv, hv'] at hvisit
        exact hvisit.elim
      | ok s₁' =>
        rw [hv, hv'] at hvisit
        exact ih hvisit

/-- What is edited is counted in both. Its pairs are counted in the second if they are in the
first. -/
theorem InStep.count (h : InStep s s') (files : Nat) :
    InStep (s.1.count s.2 files, ∅) (s'.1.count s'.2 files, ∅) where
  sound := h.sound.count files
  sound' := h.sound'.count files
  limit := by
    rw [(count_setting s.1 s.2 files).2.1, (count_setting s'.1 s'.2 files).2.1]
    exact h.limit
  languages := by
    rw [(count_setting s.1 s.2 files).1, (count_setting s'.1 s'.2 files).1]
    exact h.languages
  tree := by
    rw [(count_setting s.1 s.2 files).2.2, (count_setting s'.1 s'.2 files).2.2]
    exact h.tree
  interner := by
    rw [count_interner, count_interner]
    exact h.interner
  changes := by
    rw [count_changes_eq, count_changes_eq, h.edited, h.changes]
  revisions := by
    rw [count_revisions, count_revisions, h.revisions]
  bulkRevisions := by
    have hlimit := h.limit
    have hbulk := h.bulkRevisions
    rw [count_bulkRevisions, count_bulkRevisions]
    split <;> split <;> omega
  edited := rfl
  joint x y := by
    have hlimit := h.limit
    have hcell := h.joint x y
    rw [count_joint, count_joint, h.edited]
    by_cases hpair : x ∈ s.2 ∧ y ∈ s.2 ∧ x ≠ y
    · simp only [hpair, and_true, ne_eq, not_false_eq_true]
      split
      next hfiles =>
        rw [if_pos (Nat.le_trans hfiles hlimit)]
        exact hcell.raise
      next =>
        split
        next => exact hcell.raise_right
        next => exact hcell
    · rw [if_neg fun hc => hpair hc.2, if_neg fun hc => hpair hc.2]
      exact hcell

/-- The step of a whole revision. -/
theorem InStep.process (h : InStep (c, ∅) (c', ∅)) (r : Revision) :
    InStep ((c.process r).1, ∅) ((c'.process r).1, ∅) ∧ (c'.process r).2 = (c.process r).2 := by
  obtain ⟨hstates, herrors⟩ := h.visitAll r.edits
  unfold ChangeCounter.process
  generalize ChangeCounter.visitAll (c, ∅) r.edits = reached at hstates herrors
  generalize ChangeCounter.visitAll (c', ∅) r.edits = reached' at hstates herrors
  obtain ⟨⟨c₁, edited⟩, error⟩ := reached
  obtain ⟨⟨c₁', edited'⟩, error'⟩ := reached'
  obtain rfl : error' = error := herrors
  cases error' with
  | none => exact ⟨hstates.count r.changeSet.size, rfl⟩
  | some why => exact ⟨hstates.drop, rfl⟩

/-- The run: both counts succeed and are in step, or both fail with one error. -/
theorem InStep.processAll (rs : List Revision) : ∀ {c c' : ChangeCounter}, InStep (c, ∅) (c', ∅) →
    (∃ d d', c.processAll rs = .ok d ∧ c'.processAll rs = .ok d' ∧ InStep (d, ∅) (d', ∅)) ∨
      ∃ why, c.processAll rs = .error why ∧ c'.processAll rs = .error why := by
  induction rs with
  | nil => exact fun {c c'} h => Or.inl ⟨c, c', rfl, rfl, h⟩
  | cons r rs ih =>
    intro c c' h
    obtain ⟨hnext, herrors⟩ := h.process r
    rw [ChangeCounter.processAll, ChangeCounter.processAll]
    generalize c.process r = reached at hnext herrors
    generalize c'.process r = reached' at hnext herrors
    obtain ⟨c₁, error⟩ := reached
    obtain ⟨c₁', error'⟩ := reached'
    obtain rfl : error' = error := herrors
    cases error' with
    | none => exact ih hnext
    | some why => exact Or.inr ⟨why, rfl, rfl⟩

/-! ## Couplings -/

/-- With the same changes, more joint changes are a stronger coupling. -/
theorem ratio_mono {n n' k l : Nat} (hpos : 0 < n') (hn : n ≤ n') (hk : n' ≤ k) (hl : n' ≤ l) :
    (Weight.ratio n (k + l - n) : Rat) ≤ Weight.ratio n' (k + l - n') := by
  have htotal : 0 < k + l - n' := by omega
  have hless : k + l - n' ≤ k + l - n := by omega
  show (n : Rat) / (k + l - n : Nat) ≤ (n' : Rat) / (k + l - n' : Nat)
  exact div_le_div₀ (Nat.cast_nonneg n') (Nat.cast_le.mpr hn) (Nat.cast_pos.mpr htotal)
    (Nat.cast_le.mpr hless)

/-- A coupling that is recorded in the first count is recorded in the second, and not weaker. -/
theorem InStep.coupling (h : InStep (c, ∅) (c', ∅)) {a b : Handle} {v : Rat}
    (hv : (c.context : Context Rat).coupling.get? a b = some v) :
    ∃ v', (c'.context : Context Rat).coupling.get? a b = some v' ∧ v ≤ v' := by
  have hw := context_wellFormed (ω := Rat) h.sound
  have hw' := context_wellFormed (ω := Rat) h.sound'
  have hsome : ((c.context : Context Rat).joint.get? a b).isSome = true := by
    rw [hw.same_cells, hv]
    rfl
  obtain ⟨n, hn⟩ := Option.isSome_iff_exists.mp hsome
  obtain ⟨n', hn', hle⟩ := h.joint a b n hn
  obtain ⟨k, l, hk, hl, -, hvn⟩ := hw.cell a b n hn
  obtain ⟨k', l', hk', hl', hbounds, hvn'⟩ := hw'.cell a b n' hn'
  -- the changes are the same on both sides
  have hchanges : (c'.context : Context Rat).changes = (c.context : Context Rat).changes :=
    h.changes
  rw [hchanges, hk, Option.some.injEq] at hk'
  rw [hchanges, hl, Option.some.injEq] at hl'
  rw [hv, Option.some.injEq] at hvn
  refine ⟨_, hvn', ?_⟩
  rw [hvn, ← hk', ← hl']
  have hmin := Nat.le_min.mp hbounds.le_min
  exact ratio_mono hbounds.pos hle (hk' ▸ hmin.1) (hl' ▸ hmin.2)

/-- A coupling under the stricter limit is one under the other, and there it is at least as large.
-/
theorem InStep.couplingCell? (h : InStep (c, ∅) (c', ∅)) {x y : QualifiedId} {v : Rat}
    (hv : (c.context : Context Rat).couplingCell? x y = some v) :
    ∃ v', (c'.context : Context Rat).couplingCell? x y = some v' ∧ v ≤ v' := by
  obtain ⟨a, ha, hv⟩ := Option.bind_eq_some_iff.mp hv
  obtain ⟨b, hb, hv⟩ := Option.bind_eq_some_iff.mp hv
  obtain ⟨v', hv', hle⟩ := h.coupling hv
  refine ⟨v', ?_, hle⟩
  unfold Context.couplingCell? Context.cell?
  show ((c'.interner.get? x).bind fun a => (c'.interner.get? y).bind fun b => _) = _
  rw [h.interner, show c.interner.get? x = some a from ha, Option.bind_some,
    show c.interner.get? y = some b from hb, Option.bind_some]
  exact hv'

/-- What a larger limit changes in a count of the same history: no tree and no change count, but
there may be more joint changes, so more pairs and stronger couplings. -/
structure Widened (c c' : ChangeCounter) : Prop where
  tree : c'.tree = c.tree
  revisions : c'.revisions = c.revisions
  bulkRevisions : c'.bulkRevisions ≤ c.bulkRevisions
  changeCount : ∀ x, c'.changeCount x = c.changeCount x
  jointCount : ∀ x y, c.jointCount x y ≤ c'.jointCount x y
  cells : ∀ x y v, (x, y, v) ∈ (c.context : Context Rat).cells →
    ∃ v', (x, y, v') ∈ (c'.context : Context Rat).cells ∧ v ≤ v'
  pairs : ∀ x y, (x, y) ∈ (c.context : Context Rat).pairs →
    (x, y) ∈ (c'.context : Context Rat).pairs ∧
      (c.context : Context Rat).couplingOf x y ≤ (c'.context : Context Rat).couplingOf x y

theorem InStep.widened (h : InStep (c, ∅) (c', ∅)) : Widened c c' where
  tree := h.tree
  revisions := h.revisions
  bulkRevisions := h.bulkRevisions
  changeCount x := by
    unfold ChangeCounter.changeCount
    rw [show c'.interner = c.interner from h.interner, show c'.changes = c.changes from h.changes]
  jointCount x y := by
    unfold ChangeCounter.jointCount
    rw [show c'.interner = c.interner from h.interner]
    split
    next a b _ _ => exact (h.joint a b).getD
    next => exact Nat.le_refl 0
  cells x y v hv := by
    rw [Context.mem_cells h.sound.interner] at hv
    obtain ⟨v', hv', hle⟩ := h.couplingCell? hv
    exact ⟨v', (Context.mem_cells h.sound'.interner).mpr hv', hle⟩
  pairs x y hxy := by
    obtain ⟨hlt, hsome⟩ := (Context.mem_pairs h.sound.interner).mp hxy
    obtain ⟨v, hv⟩ := Option.isSome_iff_exists.mp hsome
    obtain ⟨v', hv', hle⟩ := h.couplingCell? hv
    refine ⟨(Context.mem_pairs h.sound'.interner).mpr ⟨hlt, by rw [hv']; rfl⟩, ?_⟩
    rw [Context.couplingOf_eq, Context.couplingOf_eq, hv, hv']
    exact hle

/-- A history is counted without error under one limit if it is under the other. With the larger
limit the tree and all change counts are the same, no joint count is smaller, and every pair that is
recorded with the smaller one is recorded, with a coupling that is not weaker. -/
theorem limit_monotone (languages : Languages) {M M' : Nat} (hM : M ≤ M') (rs : List Revision) :
    (∃ c c', (start languages M).processAll rs = .ok c ∧
      (start languages M').processAll rs = .ok c' ∧ Widened c c') ∨
    ∃ why, (start languages M).processAll rs = .error why ∧
      (start languages M').processAll rs = .error why := by
  rcases (inStep_start languages hM).processAll rs with ⟨c, c', hc, hc', h⟩ | herror
  · exact Or.inl ⟨c, c', hc, hc', h.widened⟩
  · exact Or.inr herror

/-- One of the revisions touches two files. It counts for the pairs with the limit two, but not with
the limit one; an entity is removed and added again in both. -/
theorem limit_monotone_readded : ∃ c c', (start {} 1).processAll readdedHistory = .ok c ∧
    (start {} 2).processAll readdedHistory = .ok c' ∧ Widened c c' ∧
      c.jointCount sampleF sampleG = 1 ∧ c'.jointCount sampleF sampleG = 2 := by
  have hone : ((start {} 1).processAll readdedHistory).toOption.map
      (·.jointCount sampleF sampleG) = some 1 := by decide +kernel
  have htwo : ((start {} 2).processAll readdedHistory).toOption.map
      (·.jointCount sampleF sampleG) = some 2 := by decide +kernel
  obtain ⟨d, hd, hcount⟩ := exists_ok hone
  obtain ⟨d', hd', hcount'⟩ := exists_ok htwo
  rcases limit_monotone {} (show 1 ≤ 2 by decide) readdedHistory with
    ⟨c, c', hc, hc', hwidened⟩ | ⟨why, herror, -⟩
  · rw [hd, Except.ok.injEq] at hc
    rw [hd', Except.ok.injEq] at hc'
    exact ⟨c, c', hc ▸ hd, hc' ▸ hd', hwidened, hc ▸ hcount, hc' ▸ hcount'⟩
  · rw [hd] at herror
    cases herror

end ChangeCounter

end Cochange
