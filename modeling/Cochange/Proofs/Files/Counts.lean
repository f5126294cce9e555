import Cochange.Proofs.Counting.Recount
import Cochange.Proofs.Files.Trees

/-!
# Counting one source file

A history can be cut down to one source file: each revision keeps its edits to this file only
(`Revision.ofFile`). If the history is counted without error then so is what is left of it
(`exists_processAll_ofFile`), since whether an edit can be applied does not depend on anything
before it. And the entities of the file have the same counts, alone (`recount_ofFile`) and, as long
as no revision is a bulk change, in pairs (`jointRecount_ofFile`).

The counts are compared by what they are when one looks back over the history, so that neither the
handles of the two runs nor what they forget on the way matters.
-/

namespace Cochange

/-- A revision with only its edits to a source file. -/
def Revision.ofFile (path : String) (r : Revision) : Revision :=
  { r with edits := Edit.ofFile path r.edits }

/-! ## Whether a history can be counted -/

/-- Whether an edit can be applied: if it adds a node, this node and all below it can be named. -/
def Edit.Applicable : Edit → Prop
  | addNode id node => ∃ nodes, node.walk id = .ok nodes
  | removeNode _ => True
  | editEntity _ => True

namespace ChangeCounter

variable {c : ChangeCounter}

/-- Whether an edit succeeds does not depend on what was counted before. -/
theorem visit_applicable (s : ChangeCounter × EditedSet) (e : Edit) :
    (∃ s', visit s e = .ok s') ↔ e.Applicable := by
  cases e with
  | addNode id node =>
    rw [visit_addNode, Edit.Applicable]
    cases node.walk id with
    | error why =>
      refine iff_of_false ?_ ?_
      · rintro ⟨s', h⟩
        cases h
      · rintro ⟨nodes, h⟩
        cases h
    | ok nodes => exact ⟨fun _ => ⟨nodes, rfl⟩, fun _ => ⟨_, rfl⟩⟩
  | removeNode id => exact ⟨fun _ => trivial, fun _ => ⟨_, rfl⟩⟩
  | editEntity id =>
    refine ⟨fun _ => trivial, fun _ => ?_⟩
    rw [visit]
    cases s.1.tree.get? id with
    | none => exact ⟨_, rfl⟩
    | some kind => exact ⟨_, rfl⟩

/-- The edits of a revision succeed if each of them can be applied. -/
theorem visitAll_applicable (es : List Edit) (s : ChangeCounter × EditedSet) :
    (visitAll s es).2 = none ↔ ∀ e ∈ es, e.Applicable := by
  induction es generalizing s with
  | nil => exact ⟨fun _ e he => absurd he List.not_mem_nil, fun _ => rfl⟩
  | cons e es ih =>
    rw [List.forall_mem_cons, ← visit_applicable s e, visitAll]
    cases visit s e with
    | error why =>
      refine iff_of_false (fun h => by cases h) ?_
      rintro ⟨⟨s', h⟩, -⟩
      cases h
    | ok s' => exact (ih s').trans ⟨fun h => ⟨⟨s', rfl⟩, h⟩, fun h => h.2⟩

/-- A revision is counted if each of its edits can be applied. -/
theorem process_applicable (r : Revision) :
    (c.process r).2 = none ↔ ∀ e ∈ r.edits, e.Applicable := by
  rw [← visitAll_applicable r.edits (c, ∅), process]
  rcases visitAll (c, ∅) r.edits with ⟨⟨c', edited⟩, _ | why⟩
  · exact Iff.rfl
  · exact Iff.rfl

/-- A history is counted without error exactly if all its edits can be applied. -/
theorem processAll_applicable (rs : List Revision) (c : ChangeCounter) :
    (∃ c', c.processAll rs = .ok c') ↔ ∀ r ∈ rs, ∀ e ∈ r.edits, e.Applicable := by
  induction rs generalizing c with
  | nil => exact ⟨fun _ r hr => absurd hr List.not_mem_nil, fun _ => ⟨c, rfl⟩⟩
  | cons r rs ih =>
    rw [List.forall_mem_cons, ← process_applicable (c := c) r, processAll]
    rcases c.process r with ⟨c', _ | why⟩
    · exact (ih c').trans ⟨fun h => ⟨rfl, h⟩, fun h => h.2⟩
    · refine iff_of_false ?_ ?_
      · rintro ⟨c'', h⟩
        cases h
      · rintro ⟨h, -⟩
        cases h

/-- What is left of a history for one file is counted without error if the history is. -/
theorem exists_processAll_ofFile {rs : List Revision} {c' : ChangeCounter}
    (h : c.processAll rs = .ok c') (path : String) :
    ∃ c', c.processAll (rs.map (·.ofFile path)) = .ok c' := by
  have happ := (processAll_applicable rs c).mp ⟨c', h⟩
  refine (processAll_applicable _ c).mpr fun r hr e he => ?_
  obtain ⟨r', hr', rfl⟩ := List.mem_map.mp hr
  exact happ r' hr' e (List.mem_filter.mp he).1

end ChangeCounter

/-! ## What is counted -/

variable {path : String} {x y : QualifiedId}

/-- Edits remove entities of their own files only. -/
theorem Edit.sourcePath_of_removes {e : Edit} (h : e.removes x = true) :
    e.sourcePath = x.sourcePath := by
  cases e with
  | addNode id node => cases h
  | removeNode id => exact (QualifiedId.sourcePath_of_isWithin h).symm
  | editEntity id => cases h

/-- Only edits of its own file remove an entity. -/
theorem removes_ofFile (hx : x.sourcePath = path) (r : Revision) :
    (r.ofFile path).removes x = r.removes x := by
  show (r.edits.filter _).any _ = r.edits.any _
  rw [List.any_filter]
  refine List.any_congr rfl fun e => ?_
  cases h : e.removes x with
  | false => exact Bool.and_false _
  | true => rw [Bool.and_true, decide_eq_true ((Edit.sourcePath_of_removes h).trans hx)]

theorem removedAfter_ofFile (hx : x.sourcePath = path) (rs : List Revision) (k : Nat) :
    removedAfter (rs.map (·.ofFile path)) k x = removedAfter rs k x := by
  unfold removedAfter
  rw [← List.map_drop, List.any_map]
  exact List.any_congr rfl fun r => removes_ofFile hx r

/-- A history and its part for a file leave trees that are alike on the file. -/
theorem SourceTree.Alike.foldl_revisions (rs : List Revision) : ∀ {t t' : SourceTree},
    Alike path t t' →
    Alike path (rs.foldl (fun t r => r.edits.foldl SourceTree.after t) t)
      ((rs.map (·.ofFile path)).foldl (fun t r => r.edits.foldl SourceTree.after t) t') := by
  induction rs with
  | nil => exact fun h => h
  | cons r rs ih => exact fun h => ih (h.foldl_after r.edits)

/-- At every revision the trees of both histories are alike on the file. -/
theorem alike_treeBefore (rs : List Revision) (k : Nat) :
    SourceTree.Alike path (treeBefore rs k) (treeBefore (rs.map (·.ofFile path)) k) := by
  unfold treeBefore
  rw [← List.map_take]
  exact SourceTree.Alike.foldl_revisions _
    ⟨SourceTree.linked_empty, SourceTree.linked_empty, fun _ _ => rfl⟩

/-- A revision leaves an entity edited by the edits of its file alone. -/
theorem mem_editedIn_ofFile (ls : Languages) (hx : x.sourcePath = path) (rs : List Revision)
    (k : Nat) : x ∈ editedIn ls (rs.map (·.ofFile path)) k ↔ x ∈ editedIn ls rs k := by
  unfold editedIn
  rw [List.getElem?_map]
  cases rs[k]? with
  | none => exact Iff.rfl
  | some r => exact (mem_editedBy_ofFile r.edits hx (alike_treeBefore rs k) Iff.rfl).symm

/-- The part of a revision touches no more files than the revision. -/
theorem filesIn_ofFile_le (path : String) (rs : List Revision) (k : Nat) :
    filesIn (rs.map (·.ofFile path)) k ≤ filesIn rs k := by
  unfold filesIn
  rw [List.getElem?_map]
  cases rs[k]? with
  | none => exact Nat.le_refl 0
  | some r =>
    refine Finset.card_le_card fun p hp => ?_
    rw [List.mem_toFinset] at hp ⊢
    obtain ⟨e, he, rfl⟩ := List.mem_map.mp hp
    exact List.mem_map_of_mem (List.mem_filter.mp he).1

/-- Looking back, an entity has the same count in the part for its file. -/
theorem recount_ofFile (ls : Languages) (hx : x.sourcePath = path) (rs : List Revision) :
    recount ls (rs.map (·.ofFile path)) x = recount ls rs x := by
  unfold recount
  rw [List.length_map]
  simp only [mem_editedIn_ofFile ls hx, removedAfter_ofFile hx]

/-- Where no revision is a bulk change, none is at any point. -/
theorem filesIn_le_of_forall {rs : List Revision} {limit : Nat}
    (hsmall : ∀ r ∈ rs, r.changeSet.size ≤ limit) (k : Nat) : filesIn rs k ≤ limit := by
  unfold filesIn
  cases h : rs[k]? with
  | none => exact Nat.zero_le limit
  | some r =>
    dsimp only
    rw [← size_changeSet]
    exact hsmall r (List.mem_of_getElem? h)

/-- Looking back, two entities of a file have the same joint count in its part, as no revision is a
bulk change. -/
theorem jointRecount_ofFile (ls : Languages) {limit : Nat} {rs : List Revision}
    (hsmall : ∀ r ∈ rs, r.changeSet.size ≤ limit) (hx : x.sourcePath = path)
    (hy : y.sourcePath = path) :
    jointRecount ls limit (rs.map (·.ofFile path)) x y = jointRecount ls limit rs x y := by
  have hfiles := filesIn_le_of_forall hsmall
  have hfiles' := fun k => (filesIn_ofFile_le path rs k).trans (hfiles k)
  unfold jointRecount
  rw [List.length_map]
  simp only [mem_editedIn_ofFile ls hx, mem_editedIn_ofFile ls hy, removedAfter_ofFile hx,
    removedAfter_ofFile hy, hfiles, hfiles', true_and]

end Cochange
