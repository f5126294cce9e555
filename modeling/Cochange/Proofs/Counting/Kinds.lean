import Cochange.Proofs.Counting.Failing
import Cochange.Proofs.Files.Counts

/-!
# The kinds of counted entities

Whether the kind of an entity is tracked is looked at once, when an edit takes the entity up for
counting (`Edit.Takes`). The kind may come or change behind that: an entity is edited before it is
added, it is added once more as something else, or one addition lists it twice. It is counted all
the same, whatever its kind is then (`counted_under_untracked_kind`).

There is no other way. Every count goes back to an edit that took the entity up and was not followed
by its removal (`accounted_run`), and between this edit and the end the tree changes the kind of the
entity by additions only (`get?_foldl_after`). So a counted entity that the tree holds under an
untracked kind was taken up unseen or as something else, and then given that kind
(`counted_kind`).
-/

namespace Cochange

/-! ## Taking up an entity -/

/-- An edit takes up `x` for counting while the tree is `t`: as an entity of the kind it is added
with, as one of the kind the tree knows it by, or, if the tree does not hold it, as one of no
known kind. -/
inductive Edit.Takes (ls : Languages) (t : SourceTree) (x : QualifiedId) :
    Edit → Option NodeKind → Prop where
  | added {id : QualifiedId} {node n : SourceNode} {nodes : List (QualifiedId × SourceNode)}
      (hw : node.walk id = .ok nodes) (hn : (x, n) ∈ nodes)
      (ht : ls.isTrackable x n.kind = true) : Takes ls t x (.addNode id node) (some n.kind)
  | known {k : NodeKind} (hk : t.get? x = some k) (ht : ls.isTrackable x k = true) :
      Takes ls t x (.editEntity x) (some k)
  | unknown (hk : t.get? x = none) : Takes ls t x (.editEntity x) none

/-- One of the edits `es` takes up `x` as `found`, and no edit behind it removes `x`. The edits
`since` are this one and those behind it; `t` is the tree in front of all. -/
def TakenAs (ls : Languages) (t : SourceTree) (es : List Edit) (x : QualifiedId)
    (found : Option NodeKind) (since : List Edit) : Prop :=
  ∃ as e bs, es = as ++ e :: bs ∧ since = e :: bs ∧
    e.Takes ls (as.foldl SourceTree.after t) x found ∧ ∀ e' ∈ bs, e'.removes x = false

section Taking

variable {ls : Languages} {t : SourceTree} {x : QualifiedId} {es : List Edit} {k : NodeKind}
  {found : Option NodeKind} {since : List Edit}

/-- An entity that is taken up under a kind is tracked for it. -/
theorem Edit.Takes.trackable {e : Edit} (h : e.Takes ls t x (some k)) :
    ls.isTrackable x k = true := by
  cases h with
  | added hw hn ht => exact ht
  | known hk ht => exact ht

/-- What is edited behind an edit is taken up by it, or was edited before and stays. -/
theorem Edit.mem_editedAfter {e : Edit} {before : Finset QualifiedId}
    (hx : x ∈ e.editedAfter ls t before) :
    (∃ found, e.Takes ls t x found) ∨ x ∈ before ∧ e.removes x = false := by
  cases e with
  | addNode id node =>
    simp only [Edit.editedAfter] at hx
    split at hx
    next => exact Or.inr ⟨hx, rfl⟩
    next nodes hw =>
      rcases Finset.mem_union.mp hx with hold | hnew
      · exact Or.inr ⟨hold, rfl⟩
      · rw [List.mem_toFinset] at hnew
        obtain ⟨⟨y, n⟩, hn, rfl⟩ := List.mem_map.mp hnew
        obtain ⟨hmem, ht⟩ := List.mem_filter.mp hn
        exact Or.inl ⟨some n.kind, .added hw hmem ht⟩
  | removeNode id => exact Or.inr (Finset.mem_filter.mp hx)
  | editEntity id =>
    simp only [Edit.editedAfter] at hx
    split at hx
    next k hk =>
      split at hx
      next ht =>
        rcases Finset.mem_insert.mp hx with rfl | hold
        · exact Or.inl ⟨some k, .known hk ht⟩
        · exact Or.inr ⟨hold, rfl⟩
      next => exact Or.inr ⟨hx, rfl⟩
    next hk =>
      rcases Finset.mem_insert.mp hx with rfl | hold
      · exact Or.inl ⟨none, .unknown hk⟩
      · exact Or.inr ⟨hold, rfl⟩

/-- Later edits that do not remove the entity leave it taken up. -/
theorem TakenAs.append (h : TakenAs ls t es x found since) {fs : List Edit}
    (hfs : ∀ e ∈ fs, e.removes x = false) : TakenAs ls t (es ++ fs) x found (since ++ fs) := by
  obtain ⟨as, e, bs, rfl, rfl, htakes, hbs⟩ := h
  refine ⟨as, e, bs ++ fs, List.append_assoc .., rfl, htakes, fun e' he' => ?_⟩
  exact (List.mem_append.mp he').elim (hbs e') (hfs e')

/-- Earlier edits make no difference but to the tree that an edit finds. -/
theorem TakenAs.behind (as : List Edit)
    (h : TakenAs ls (as.foldl SourceTree.after t) es x found since) :
    TakenAs ls t (as ++ es) x found since := by
  obtain ⟨bs, e, cs, rfl, rfl, htakes, hcs⟩ := h
  refine ⟨as ++ bs, e, cs, (List.append_assoc ..).symm, rfl, ?_, hcs⟩
  rw [List.foldl_append]
  exact htakes

/-- What some edits leave edited is taken up by one of them, or was edited before and stays. -/
theorem mem_editedBy (es : List Edit) : ∀ {t : SourceTree} {before : Finset QualifiedId},
    x ∈ editedBy ls t before es →
    (∃ found since, TakenAs ls t es x found since) ∨
      x ∈ before ∧ ∀ e ∈ es, e.removes x = false := by
  induction es with
  | nil => exact fun hx => Or.inr ⟨hx, fun e he => absurd he List.not_mem_nil⟩
  | cons e es ih =>
    intro t before hx
    rcases ih hx with ⟨found, since, htaken⟩ | ⟨hx, hes⟩
    · exact Or.inl ⟨found, since, htaken.behind [e]⟩
    rcases Edit.mem_editedAfter hx with ⟨found, htakes⟩ | ⟨hold, he⟩
    · exact Or.inl ⟨found, e :: es, [], e, es, rfl, rfl, htakes, hes⟩
    · exact Or.inr ⟨hold, List.forall_mem_cons.mpr ⟨he, hes⟩⟩

/-- A node has the kind that some edits gave to it last, or else the one it had. -/
theorem SourceTree.get?_foldl_after (es : List Edit) {k : NodeKind}
    (h : (es.foldl SourceTree.after t).get? x = some k) :
    latestKind (es.map .apply) x = some k ∨
      latestKind (es.map .apply) x = none ∧ t.get? x = some k := by
  induction es using List.reverseRecOn generalizing k with
  | nil => exact Or.inr ⟨rfl, h⟩
  | append_singleton es e ih =>
    rw [List.foldl_append] at h
    have hlatest : latestKind ((es ++ [e]).map .apply) x =
        (Operation.kind? x (.apply e)).or (latestKind (es.map .apply) x) := by
      unfold latestKind
      rw [List.map_append, List.foldl_append]
      rfl
    rw [hlatest]
    rcases get?_perform (.apply e) h with hnew | ⟨hnone, hold⟩
    · exact Or.inl (by rw [hnew, Option.some_or])
    · rw [hnone, Option.none_or]
      exact ih hold

/-- Where no operation came last to give a kind, none gave one. -/
theorem SourceTree.kind?_eq_none_of_latestKind {ops : List Operation}
    (h : latestKind ops x = none) : ∀ o ∈ ops, o.kind? x = none := by
  induction ops using List.reverseRecOn with
  | nil => exact fun o ho => absurd ho List.not_mem_nil
  | append_singleton ops o ih =>
    unfold latestKind at h
    rw [List.foldl_concat, Option.or_eq_none_iff] at h
    intro o' ho'
    rcases List.mem_append.mp ho' with hold | hnew
    · exact ih h.2 o' hold
    · rw [List.mem_singleton] at hnew
      exact hnew ▸ h.1

/-- An edit that takes up an entity and gives it no kind found it as the tree has it. -/
theorem Edit.Takes.found_eq {e : Edit} (h : e.Takes ls t x found)
    (hkind : SourceTree.Operation.kind? x (.apply e) = none) : found = t.get? x := by
  cases h with
  | added hw hn ht =>
    simp only [SourceTree.Operation.kind?, SourceTree.Operation.edit, hw] at hkind
    rw [SourceTree.lastKind_eq_none_iff, List.map_map] at hkind
    exact absurd (List.mem_map.mpr ⟨_, hn, rfl⟩) hkind
  | known hk ht => exact hk.symm
  | unknown hk => exact hk.symm

end Taking

/-! ## The edits that are performed -/

instance : DecidablePred Edit.Applicable
  | .addNode id node =>
    match h : node.walk id with
    | .ok nodes => .isTrue ⟨nodes, h⟩
    | .error _ => .isFalse fun ⟨_, h'⟩ => by
      rw [h] at h'
      cases h'
  | .removeNode _ => .isTrue trivial
  | .editEntity _ => .isTrue trivial

/-- The edits of a revision in front of the first that cannot be applied. -/
def Revision.performed (r : Revision) : List Edit :=
  r.edits.takeWhile (·.Applicable)

/-- The edits that a history performs. -/
def performed (rs : List Revision) : List Edit :=
  rs.flatMap (·.performed)

/-- What a longer history performs is that of the shorter one and of the last revision. -/
theorem performed_concat (rs : List Revision) (r : Revision) :
    performed (rs ++ [r]) = performed rs ++ r.performed := by
  unfold performed
  rw [List.flatMap_append, List.flatMap_singleton]

namespace ChangeCounter

variable {ls : Languages} {x : QualifiedId}

/-- What the edits of a revision do is what those do that are performed. -/
theorem visitAll_performed (es : List Edit) (s : ChangeCounter × EditedSet) :
    visitAll s (es.takeWhile (·.Applicable)) = ((visitAll s es).1, none) := by
  induction es generalizing s with
  | nil => rfl
  | cons e es ih =>
    have happ := visit_applicable s e
    cases hv : visit s e with
    | error why =>
      rw [hv] at happ
      have hno : ¬e.Applicable := fun h => by
        obtain ⟨s', hs'⟩ := happ.mpr h
        cases hs'
      rw [List.takeWhile_cons_of_neg (by simpa using hno), visitAll, visitAll, hv]
    | ok s' =>
      have hyes : e.Applicable := happ.mp ⟨s', hv⟩
      rw [List.takeWhile_cons_of_pos (by simpa using hyes), visitAll, visitAll, hv]
      exact ih s'

/-- The step, for a revision that may fail: the tree is changed by the edits performed, and what
has a count had one and was not removed, or is left edited. -/
theorem process_performed {c : ChangeCounter} (hc : Sound (c, ∅)) (r : Revision) :
    (c.process r).1.languages = c.languages ∧
    (c.process r).1.tree = r.performed.foldl SourceTree.after c.tree ∧
    ∀ x, 0 < (c.process r).1.changeCount x →
      (0 < c.changeCount x ∧ ∀ e ∈ r.performed, e.removes x = false) ∨
        x ∈ editedBy c.languages c.tree ∅ r.performed := by
  have hv : Visited r.performed (c, ∅) (visitAll (c, ∅) r.edits).1 :=
    visitAll_visited _ (visitAll_performed r.edits (c, ∅))
  have hkept : ∀ x, 0 < (visitAll (c, ∅) r.edits).1.1.changeCount x →
      0 < c.changeCount x ∧ ∀ e ∈ r.performed, e.removes x = false := by
    intro x hx
    rw [hv.changes hc] at hx
    split at hx
    next => exact absurd hx (Nat.lt_irrefl 0)
    next hno => exact ⟨hx, by simpa using hno⟩
  have hE := hv.edited hc ∅ fun x => by simp [not_isEdited_empty]
  have hl := hv.languages
  have ht := hv.tree
  unfold process
  split
  next c' edited why heq =>
    rw [heq] at hkept hl ht
    exact ⟨hl, ht, fun x hx => Or.inl (hkept x hx)⟩
  next c' edited heq =>
    rw [heq] at hkept hl ht hE
    obtain ⟨hl', -, ht'⟩ := count_setting c' edited r.changeSet.size
    refine ⟨hl'.trans hl, ht'.trans ht, fun x hx => ?_⟩
    rw [changeCount_count hE] at hx
    by_cases hedited : x ∈ editedBy c.languages c.tree ∅ r.performed
    · exact Or.inr hedited
    · rw [if_neg hedited] at hx
      exact Or.inl (hkept x hx)

/-- What is known of the count after a history: its languages, its tree, and that every count goes
back to an edit that took the entity up. -/
structure Accounted (ls : Languages) (rs : List Revision) (c : ChangeCounter) : Prop where
  sound : Sound (c, ∅)
  languages : c.languages = ls
  tree : c.tree = (performed rs).foldl SourceTree.after .empty
  taken : ∀ x, 0 < c.changeCount x →
    ∃ found since, TakenAs ls .empty (performed rs) x found since

/-- One more revision leaves every count with an edit to go back to. -/
theorem Accounted.process {rs : List Revision} {c : ChangeCounter} (h : Accounted ls rs c)
    (r : Revision) : Accounted ls (rs ++ [r]) (c.process r).1 := by
  obtain ⟨hl, ht, hcount⟩ := process_performed h.sound r
  refine ⟨h.sound.process r, hl.trans h.languages, ?_, fun x hx => ?_⟩
  · rw [ht, h.tree, performed_concat, List.foldl_append]
  rw [performed_concat]
  rcases hcount x hx with ⟨hold, hes⟩ | hedited
  · obtain ⟨found, since, htaken⟩ := h.taken x hold
    exact ⟨found, since ++ r.performed, htaken.append hes⟩
  · rw [h.languages, h.tree] at hedited
    rcases mem_editedBy _ hedited with ⟨found, since, htaken⟩ | ⟨hnone, -⟩
    · exact ⟨found, since, htaken.behind _⟩
    · exact absurd hnone (Finset.notMem_empty x)

/-- Every count goes back to an edit, whatever fails on the way. -/
theorem accounted_run (ls : Languages) (limit : Nat) (rs : List Revision) :
    Accounted ls rs ((start ls limit).run rs) := by
  induction rs using List.reverseRecOn with
  | nil => exact ⟨sound_start ls limit, rfl, rfl, fun x hx => absurd hx (Nat.lt_irrefl 0)⟩
  | append_singleton rs r ih =>
    have hrun : (start ls limit).run (rs ++ [r]) =
        (((start ls limit).run rs).process r).1 := List.foldl_concat ..
    rw [hrun]
    exact ih.process r

/-! ## The kinds -/

/-- In every state of the count, behind revisions that fail as well, an entity that has a count and
that the tree holds is tracked for its kind there; unless an edit took it up, unseen or under
another kind, that no edit removed it behind, and an addition from this edit on gave it the kind
that it has. -/
theorem counted_kind (ls : Languages) (limit : Nat) (rs : List Revision) (x : QualifiedId)
    (k : NodeKind) (hx : 0 < ((start ls limit).run rs).changeCount x)
    (hk : ((start ls limit).run rs).tree.get? x = some k) :
    ls.isTrackable x k = true ∨
    ∃ found since, TakenAs ls .empty (performed rs) x found since ∧ found ≠ some k ∧
      SourceTree.latestKind (since.map .apply) x = some k := by
  have h := accounted_run ls limit rs
  obtain ⟨found, since, htaken⟩ := h.taken x hx
  by_cases hfound : found = some k
  · obtain ⟨as, e, bs, -, -, htakes, -⟩ := htaken
    exact Or.inl (hfound ▸ htakes).trackable
  refine Or.inr ⟨found, since, htaken, hfound, ?_⟩
  obtain ⟨as, e, bs, hes, rfl, htakes, -⟩ := htaken
  rw [h.tree, hes, List.foldl_append] at hk
  rcases SourceTree.get?_foldl_after _ hk with hlatest | ⟨hnone, hbefore⟩
  · exact hlatest
  -- nothing has changed the kind since, so the edit found the entity under it
  · have hgives := SourceTree.kind?_eq_none_of_latestKind hnone (.apply e)
      (List.mem_map_of_mem List.mem_cons_self)
    exact absurd ((htakes.found_eq hgives).trans hbefore) hfound

/-- A variable is edited before it is added. -/
def editedThenAdded : List Revision :=
  [.ofEdits [.editEntity sampleV], .ofEdits [.addNode sampleV (.ofName "v")]]

/-- The edit found no variable; it became one behind that. -/
theorem counted_kind_unseen :
    ∃ found since, TakenAs {} .empty (performed editedThenAdded) sampleV found since ∧
      found ≠ some .var ∧ SourceTree.latestKind (since.map .apply) sampleV = some .var :=
  (counted_kind {} 100 editedThenAdded sampleV .var (by decide +kernel)
    (by decide +kernel)).resolve_left (by decide +kernel)

/-- Whether files are counted is up to the languages: one may track them as a whole. -/
example : ((start ⟨[{ name := "whole", covers := fun _ => true, tracks := fun _ => true }]⟩ 100).run
    [.ofEdits [.addNode sampleFile (.file "a.rs" [])]]).changeCount sampleFile = 1 := by
  decide +kernel

/-- A function is added, and then once more as a variable. -/
def addedThenReplaced : List Revision :=
  [.ofEdits [.addNode sampleF (.ofSignature "f()")], .ofEdits [.addNode sampleF (.ofName "f")]]

/-- A file is added that lists one id as a function and as a variable. -/
def listedTwice : List Revision :=
  [.ofEdits [.addNode sampleFile (.file "a.rs" [.ofSignature "f()", .ofName "f()"])]]

/-- Whether every entity that has a count and that the tree holds is tracked for its kind. -/
def KindsTracked (c : ChangeCounter) : Prop :=
  ∀ x k, 0 < c.changeCount x → c.tree.get? x = some k → c.languages.isTrackable x k = true

/-- A variable that has a count is enough to the contrary. -/
theorem exists_not_kindsTracked {rs : List Revision} {x : QualifiedId}
    (h : (((start {} 100).processAll rs).toOption.any fun c =>
      0 < c.changeCount x ∧ c.tree.get? x = some .var ∧
        c.languages.isTrackable x .var = false) = true) :
    ∃ c, (start {} 100).processAll rs = .ok c ∧ ¬c.KindsTracked := by
  cases hrs : (start {} 100).processAll rs with
  | error why =>
    rw [hrs] at h
    cases h
  | ok c =>
    rw [hrs] at h
    obtain ⟨hcount, hk, hno⟩ := of_decide_eq_true h
    refine ⟨c, rfl, fun htracked => ?_⟩
    rw [htracked x .var hcount hk] at hno
    cases hno

/-- In each of the three ways a variable comes to have a count, behind revisions that all
succeed. -/
theorem counted_under_untracked_kind :
    (∃ c, (start {} 100).processAll editedThenAdded = .ok c ∧ ¬c.KindsTracked) ∧
    (∃ c, (start {} 100).processAll addedThenReplaced = .ok c ∧ ¬c.KindsTracked) ∧
    ∃ c, (start {} 100).processAll listedTwice = .ok c ∧ ¬c.KindsTracked :=
  ⟨exists_not_kindsTracked (x := sampleV) (by decide +kernel),
    exists_not_kindsTracked (x := sampleF) (by decide +kernel),
    exists_not_kindsTracked (x := sampleF) (by decide +kernel)⟩

end ChangeCounter

end Cochange
