import Cochange.Proofs.Counting.Edited
import Mathlib.Data.Finset.Card
import Mathlib.Data.Finset.Range

/-!
# Counting online and counting afterwards

The counter goes through a history once and forgets what is removed as it goes. `recount` and
`jointRecount` look back over the whole history instead: a revision counts for an entity if it
left the entity edited and no later revision removed it.

Main result: `counts_eq_recount` — whenever a history is counted without error, the two agree, for
every entity and for every pair. It follows from the step `process_counts` by induction on the
history from its end, since a further revision decides about all earlier ones
(`card_surviving_concat`).
-/

namespace Cochange

/-! ## Looking back over a history -/

/-- The tree in front of revision `k`. -/
def treeBefore (rs : List Revision) (k : Nat) : SourceTree :=
  (rs.take k).foldl (fun t r => r.edits.foldl SourceTree.after t) .empty

/-- What revision `k` leaves edited. -/
def editedIn (ls : Languages) (rs : List Revision) (k : Nat) : Finset QualifiedId :=
  match rs[k]? with
  | none => ∅
  | some r => editedBy ls (treeBefore rs k) ∅ r.edits

/-- How many different source files revision `k` touches. -/
def filesIn (rs : List Revision) (k : Nat) : Nat :=
  match rs[k]? with
  | none => 0
  | some r => (r.edits.map Edit.sourcePath).toFinset.card

/-- Whether a revision behind revision `k` removes an entity. -/
def removedAfter (rs : List Revision) (k : Nat) (x : QualifiedId) : Bool :=
  (rs.drop (k + 1)).any (·.removes x)

/-- The number of revisions that leave an entity edited and are not followed by one that removes
it. -/
def recount (ls : Languages) (rs : List Revision) (x : QualifiedId) : Nat :=
  ((Finset.range rs.length).filter fun k =>
    x ∈ editedIn ls rs k ∧ removedAfter rs k x = false).card

/-- The number of revisions that leave two entities edited, touch at most `limit` files, and are
not followed by one that removes either. -/
def jointRecount (ls : Languages) (limit : Nat) (rs : List Revision) (x y : QualifiedId) : Nat :=
  ((Finset.range rs.length).filter fun k =>
    (filesIn rs k ≤ limit ∧ x ∈ editedIn ls rs k ∧ y ∈ editedIn ls rs k) ∧
      removedAfter rs k x = false ∧ removedAfter rs k y = false).card

/-- A cell is recorded from its first joint change on. -/
def cellOf (n : Nat) : Option Nat :=
  if n = 0 then none else some n

/-- A raised cell is that of the next number. -/
theorem raise_cellOf (n : Nat) : ChangeCounter.raise (cellOf n) = cellOf (n + 1) := by
  unfold ChangeCounter.raise cellOf
  split
  next h => simp [h]
  next => simp

/-- A further revision: what it removes does not survive it, and it may itself count. Here
`survives` and `survives'` say of a revision that nothing was removed behind it. -/
theorem card_surviving_concat (rs : List Revision) (r : Revision) (P Q survives survives' : Nat → Prop)
    [DecidablePred P] [DecidablePred Q] [DecidablePred survives] [DecidablePred survives']
    (removed : Bool) (hPQ : ∀ k < rs.length, P k ↔ Q k)
    (hearlier : ∀ k < rs.length, survives' k ↔ survives k ∧ removed = false)
    (hlast : survives' rs.length) :
    ((Finset.range (rs ++ [r]).length).filter fun k => P k ∧ survives' k).card =
      (if removed then 0 else ((Finset.range rs.length).filter fun k => Q k ∧ survives k).card) +
      if P rs.length then 1 else 0 := by
  have hcongr : ((Finset.range rs.length).filter fun k => P k ∧ survives' k) =
      (Finset.range rs.length).filter fun k => (Q k ∧ survives k) ∧ removed = false := by
    refine Finset.filter_congr fun k hk => ?_
    rw [hPQ k (Finset.mem_range.mp hk), hearlier k (Finset.mem_range.mp hk), and_assoc]
  have hkept : ((Finset.range rs.length).filter fun k => P k ∧ survives' k).card =
      if removed then 0 else ((Finset.range rs.length).filter fun k => Q k ∧ survives k).card := by
    rw [hcongr]
    cases removed <;> simp
  have hnew : rs.length ∉ (Finset.range rs.length).filter fun k => P k ∧ survives' k := by simp
  rw [List.length_append, List.length_singleton, Finset.range_add_one, Finset.filter_insert,
    ← hkept]
  by_cases hP : P rs.length
  · rw [if_pos ⟨hP, hlast⟩, Finset.card_insert_of_notMem hnew, if_pos hP]
  · rw [if_neg fun h => hP h.1, if_neg hP]
    rfl

/-- An earlier revision is followed by a removal if it was before, or if the last revision is one.
-/
theorem removedAfter_concat {rs : List Revision} {k : Nat} (hk : k < rs.length) (r : Revision)
    (x : QualifiedId) :
    removedAfter (rs ++ [r]) k x = (removedAfter rs k x || r.removes x) := by
  unfold removedAfter
  rw [List.drop_append_of_le_length (by omega), List.any_append]
  simp

/-- Nothing follows the last revision. -/
theorem removedAfter_concat_length (rs : List Revision) (r : Revision) (x : QualifiedId) :
    removedAfter (rs ++ [r]) rs.length x = false := by
  unfold removedAfter
  rw [List.drop_of_length_le (by simp)]
  rfl

theorem treeBefore_concat {rs : List Revision} {k : Nat} (hk : k ≤ rs.length) (r : Revision) :
    treeBefore (rs ++ [r]) k = treeBefore rs k := by
  unfold treeBefore
  rw [List.take_append_of_le_length hk]

/-- What an earlier revision left edited does not depend on later ones. -/
theorem editedIn_concat {rs : List Revision} {k : Nat} (hk : k < rs.length) (ls : Languages)
    (r : Revision) : editedIn ls (rs ++ [r]) k = editedIn ls rs k := by
  unfold editedIn
  rw [List.getElem?_append_left hk, treeBefore_concat (Nat.le_of_lt hk)]

theorem filesIn_concat {rs : List Revision} {k : Nat} (hk : k < rs.length) (r : Revision) :
    filesIn (rs ++ [r]) k = filesIn rs k := by
  unfold filesIn
  rw [List.getElem?_append_left hk]

/-- The last revision leaves edited what its edits make of the tree in front of it. -/
theorem editedIn_concat_length (ls : Languages) (rs : List Revision) (r : Revision) :
    editedIn ls (rs ++ [r]) rs.length = editedBy ls (treeBefore rs rs.length) ∅ r.edits := by
  unfold editedIn
  rw [List.getElem?_concat_length, treeBefore_concat (Nat.le_refl _)]

theorem filesIn_concat_length (rs : List Revision) (r : Revision) :
    filesIn (rs ++ [r]) rs.length = (r.edits.map Edit.sourcePath).toFinset.card := by
  unfold filesIn
  rw [List.getElem?_concat_length]

/-- A further revision decides about the count of the earlier ones, and adds one where it leaves the
entity edited. -/
theorem recount_concat (ls : Languages) (rs : List Revision) (r : Revision) (x : QualifiedId) :
    recount ls (rs ++ [r]) x = (if r.removes x then 0 else recount ls rs x) +
      if x ∈ editedBy ls (treeBefore rs rs.length) ∅ r.edits then 1 else 0 := by
  unfold recount
  rw [card_surviving_concat rs r (x ∈ editedIn ls (rs ++ [r]) ·) (x ∈ editedIn ls rs ·)
    (removedAfter rs · x = false) (removedAfter (rs ++ [r]) · x = false) (r.removes x)
    (fun k hk => by rw [editedIn_concat hk])
    (fun k hk => by rw [removedAfter_concat hk, Bool.or_eq_false_iff])
    (removedAfter_concat_length rs r x), editedIn_concat_length]

/-- The same for two entities, where a bulk change adds nothing. -/
theorem jointRecount_concat (ls : Languages) (limit : Nat) (rs : List Revision) (r : Revision)
    (x y : QualifiedId) :
    jointRecount ls limit (rs ++ [r]) x y =
      (if r.removes x || r.removes y then 0 else jointRecount ls limit rs x y) +
      if (r.edits.map Edit.sourcePath).toFinset.card ≤ limit ∧
        x ∈ editedBy ls (treeBefore rs rs.length) ∅ r.edits ∧
        y ∈ editedBy ls (treeBefore rs rs.length) ∅ r.edits then 1 else 0 := by
  unfold jointRecount
  rw [card_surviving_concat rs r
    (fun k => filesIn (rs ++ [r]) k ≤ limit ∧ x ∈ editedIn ls (rs ++ [r]) k ∧
      y ∈ editedIn ls (rs ++ [r]) k)
    (fun k => filesIn rs k ≤ limit ∧ x ∈ editedIn ls rs k ∧ y ∈ editedIn ls rs k)
    (fun k => removedAfter rs k x = false ∧ removedAfter rs k y = false)
    (fun k => removedAfter (rs ++ [r]) k x = false ∧ removedAfter (rs ++ [r]) k y = false)
    (r.removes x || r.removes y)
    (fun k hk => by rw [editedIn_concat hk, filesIn_concat hk])
    (fun k hk => by
      simp only [removedAfter_concat hk, Bool.or_eq_false_iff]
      tauto)
    ⟨removedAfter_concat_length rs r x, removedAfter_concat_length rs r y⟩,
    editedIn_concat_length, filesIn_concat_length]

/-- A change set holds each touched file once. -/
theorem size_changeSet (r : Revision) :
    r.changeSet.size = (r.edits.map Edit.sourcePath).toFinset.card := by
  rw [← card_toFinset_toList]
  congr 1
  ext p
  rw [List.mem_toFinset, List.mem_toFinset, Std.ExtTreeSet.mem_toList]
  exact mem_ofList_iff

namespace ChangeCounter

/-- The step: what a revision that does not fail does to the counts. -/
theorem process_counts {c c' : ChangeCounter} {r : Revision} (hc : Sound (c, ∅))
    (hp : c.process r = (c', none)) :
    c'.languages = c.languages ∧ c'.maxChangeSet = c.maxChangeSet ∧
    c'.tree = r.edits.foldl SourceTree.after c.tree ∧
    (∀ x, c'.changeCount x = (if r.removes x then 0 else c.changeCount x) +
      if x ∈ editedBy c.languages c.tree ∅ r.edits then 1 else 0) ∧
    ∀ x y, x ≠ y → c'.jointCell? x y =
      if (r.edits.map Edit.sourcePath).toFinset.card ≤ c.maxChangeSet ∧
        x ∈ editedBy c.languages c.tree ∅ r.edits ∧ y ∈ editedBy c.languages c.tree ∅ r.edits
      then raise (if r.removes x ∨ r.removes y then none else c.jointCell? x y)
      else if r.removes x ∨ r.removes y then none else c.jointCell? x y := by
  unfold process at hp
  split at hp
  next => cases hp
  next c₁ edited heq =>
    cases hp
    have hv := visitAll_visited r.edits heq
    have hE : ∀ x, IsEdited (c₁, edited) x ↔ x ∈ editedBy c.languages c.tree ∅ r.edits :=
      hv.edited hc ∅ fun x => by simp [not_isEdited_empty]
    obtain ⟨hl, hm, ht⟩ := count_setting c₁ edited r.changeSet.size
    refine ⟨hl.trans hv.languages, hm.trans hv.maxChangeSet, ht.trans hv.tree, ?_, ?_⟩
    · intro x
      rw [changeCount_count hE]
      exact congrArg (· + _) (hv.changes hc x)
    · intro x y hxy
      rw [jointCell?_count (hv.sound hc).interner hE _ hxy, size_changeSet,
        show c₁.maxChangeSet = c.maxChangeSet from hv.maxChangeSet,
        show c₁.jointCell? x y = _ from hv.joint hc x y]
      rfl

/-- A history is counted by counting all but its last revision, and then this one. -/
theorem processAll_concat (rs : List Revision) (r : Revision) (c : ChangeCounter) :
    c.processAll (rs ++ [r]) = (c.processAll rs).bind fun c =>
      match c.process r with
      | (_, some why) => .error why
      | (c, none) => .ok c := by
  induction rs generalizing c with
  | nil =>
    rcases hr : c.process r with ⟨c', _ | why⟩
    · simp only [List.nil_append, processAll, hr, Except.bind]
    · simp only [List.nil_append, processAll, hr, Except.bind]
  | cons r' rs ih =>
    simp only [List.cons_append, processAll]
    split
    next => rfl
    next => exact ih _

/-- What is known of the counter behind a history: its invariant, its settings, its tree, and that
its counts are those of looking back. -/
structure Recounted (ls : Languages) (limit : Nat) (rs : List Revision) (c : ChangeCounter) :
    Prop where
  sound : Sound (c, ∅)
  languages : c.languages = ls
  maxChangeSet : c.maxChangeSet = limit
  tree : c.tree = treeBefore rs rs.length
  changes : ∀ x, c.changeCount x = recount ls rs x
  joint : ∀ x y, x ≠ y → c.jointCell? x y = cellOf (jointRecount ls limit rs x y)

/-- Where nothing was counted there is nothing to look back to. -/
theorem recounted_start (ls : Languages) (limit : Nat) :
    Recounted ls limit [] (start ls limit) where
  sound := sound_start ls limit
  languages := rfl
  maxChangeSet := rfl
  tree := rfl
  changes _ := rfl
  joint _ _ _ := rfl

/-- One more revision. -/
theorem Recounted.process {ls : Languages} {limit : Nat} {rs : List Revision}
    {c c' : ChangeCounter} (h : Recounted ls limit rs c) {r : Revision}
    (hp : c.process r = (c', none)) : Recounted ls limit (rs ++ [r]) c' := by
  obtain ⟨hl, hm, ht, hc, hj⟩ := process_counts h.sound hp
  rw [h.languages, h.tree] at hc hj
  refine ⟨?_, hl.trans h.languages, hm.trans h.maxChangeSet, ?_, ?_, ?_⟩
  · have hs := h.sound.process r
    rw [hp] at hs
    exact hs
  · rw [ht, h.tree]
    unfold treeBefore
    rw [List.take_length, List.take_length, List.foldl_append]
    rfl
  · intro x
    rw [hc, h.changes, recount_concat]
  · intro x y hxy
    rw [hj x y hxy, h.joint x y hxy, h.maxChangeSet, jointRecount_concat]
    -- a cell that is taken out is one that counts none
    have hkept : (if r.removes x ∨ r.removes y then none
        else cellOf (jointRecount ls limit rs x y)) =
        cellOf (if r.removes x || r.removes y then 0 else jointRecount ls limit rs x y) := by
      cases r.removes x <;> cases r.removes y <;> rfl
    rw [hkept]
    by_cases hx : (r.edits.map Edit.sourcePath).toFinset.card ≤ limit ∧
      x ∈ editedBy ls (treeBefore rs rs.length) ∅ r.edits ∧
      y ∈ editedBy ls (treeBefore rs rs.length) ∅ r.edits
    · rw [if_pos hx, if_pos hx, raise_cellOf]
    · rw [if_neg hx, if_neg hx, Nat.add_zero]

/-- Counting online keeps what looking back gives, revision by revision. -/
theorem recounted_processAll (ls : Languages) (limit : Nat) (rs : List Revision)
    (c : ChangeCounter) (h : (start ls limit).processAll rs = .ok c) : Recounted ls limit rs c := by
  -- by the last revision, since looking back begins there
  induction rs using List.reverseRecOn generalizing c with
  | nil =>
    cases h
    exact recounted_start ls limit
  | append_singleton rs r ih =>
    rw [processAll_concat] at h
    cases hrs : (start ls limit).processAll rs with
    | error why =>
      rw [hrs] at h
      cases h
    | ok c₁ =>
      rw [hrs] at h
      simp only [Except.bind] at h
      split at h
      next => cases h
      next c₂ hp =>
        cases h
        exact (ih c₁ hrs).process hp

/-- Whenever a history is counted without error, the count of each entity is the number of
revisions that left it edited and are not followed by its removal, and the cell of two entities
holds the number of revisions, bulk ones left out, that left both edited and are not followed by
the removal of either; no cell is recorded for none. -/
theorem counts_eq_recount (ls : Languages) (limit : Nat) (rs : List Revision) (c : ChangeCounter)
    (h : (start ls limit).processAll rs = .ok c) (x y : QualifiedId) (hxy : x ≠ y) :
    c.changeCount x = recount ls rs x ∧
    c.jointCell? x y = if jointRecount ls limit rs x y = 0 then none
      else some (jointRecount ls limit rs x y) := by
  have hr := recounted_processAll ls limit rs c h
  exact ⟨hr.changes x, hr.joint x y hxy⟩

/-- Two functions of a file are edited together, once in a bulk change; then the first is removed
and added again in one revision. -/
def readdedHistory : List Revision :=
  [.ofEdits [.addNode sampleFile
      (.file "a.rs" [.ofSignature "f()", .ofSignature "g()", .ofName "v"])],
    .ofEdits [.editEntity sampleF, .editEntity sampleG, .editEntity sampleV],
    .ofEdits [.removeNode sampleF, .addNode sampleF (.ofSignature "f()"), .editEntity sampleG],
    .ofEdits [.editEntity sampleF, .editEntity sampleG, .editEntity sampleH]]

/-- A language of its own making: it covers the files that are in no directory, and tracks the files
themselves as well. -/
def rootLanguages : Languages :=
  ⟨[{ name := "root"
      covers := fun path => !path.toList.contains '/'
      tracks := fun kind => kind != .type }]⟩

/-- What is in front of the removal counts for the other entities only; the file counts together with
the variable that it is added with. -/
theorem counts_eq_recount_readded :
    ∃ c, (start rootLanguages 1).processAll readdedHistory = .ok c ∧
      c.changeCount sampleF = 2 ∧ c.jointCell? sampleF sampleG = some 1 ∧
      c.jointCell? sampleFile sampleV = some 1 := by
  have hok : ((start rootLanguages 1).processAll readdedHistory).toOption.isSome = true := by
    decide +kernel
  cases h : (start rootLanguages 1).processAll readdedHistory with
  | error why =>
    rw [h] at hok
    cases hok
  | ok c =>
    obtain ⟨hx, hxy⟩ := counts_eq_recount rootLanguages 1 readdedHistory c h sampleF sampleG
      (by decide)
    have hfile := (counts_eq_recount rootLanguages 1 readdedHistory c h sampleFile sampleV
      (by decide)).2
    refine ⟨c, rfl, hx.trans (by decide +kernel), hxy.trans (by decide +kernel), ?_⟩
    exact hfile.trans (by decide +kernel)

end ChangeCounter

end Cochange
