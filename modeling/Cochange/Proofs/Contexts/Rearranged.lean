import Cochange.Proofs.Contexts.Answers
import Cochange.Proofs.Files.Counts

/-!
# Rearranged histories

While nodes are added and removed, what a revision does depends on what came before it. A history
that only edits entities has no such order: its tree stays empty (`treeBefore_of_onlyEdits`),
nothing is ever forgotten, and so an entity is counted for each revision that edits it
(`recount_of_onlyEdits`), and a pair for each that edits both and is no bulk change
(`jointRecount_of_onlyEdits`).

Such numbers do not change when the history is rearranged (`Rearranged.countP_eq`): when its
revisions are put in another order, and each of them has the same edits, in another order, or some
of them more or less often. The two runs give entities different handles, but the answers of the
two contexts are the same (`finish_rearranged`).
-/

namespace Cochange

/-! ## Rearranging -/

/-- Whether all edits of a revision change the contents of entities. -/
def Revision.OnlyEdits (r : Revision) : Prop :=
  ∀ e ∈ r.edits, ∃ id, e = .editEntity id

/-- Whether two revisions have the same edits, in whatever order and however often. -/
def Revision.SameEdits (r r' : Revision) : Prop :=
  ∀ e, e ∈ r.edits ↔ e ∈ r'.edits

/-- Whether one history is the other with its revisions in another order, each of them with the
same edits. -/
def Rearranged (rs rs' : List Revision) : Prop :=
  ∃ mid, rs.Perm mid ∧ List.Forall₂ Revision.SameEdits mid rs'

variable {rs rs' : List Revision} {r r' : Revision} {x y : QualifiedId}

/-- What can be read off edits is found in both revisions. -/
theorem Revision.SameEdits.mem_map {α : Type} (h : r.SameEdits r') (f : Edit → α) (a : α) :
    a ∈ r.edits.map f ↔ a ∈ r'.edits.map f := by
  rw [List.mem_map, List.mem_map]
  exact exists_congr fun e => and_congr_left' (h e)

theorem Revision.SameEdits.onlyEdits (h : r.SameEdits r') (hr : r.OnlyEdits) : r'.OnlyEdits :=
  fun e he => hr e ((h e).mpr he)

namespace Rearranged

/-- Equally many revisions of both histories have a property that depends on the edits only. -/
theorem countP_eq (h : Rearranged rs rs') (P : Revision → Bool)
    (hP : ∀ r r' : Revision, r.SameEdits r' → P r = P r') : rs.countP P = rs'.countP P := by
  obtain ⟨mid, hperm, hsame⟩ := h
  rw [hperm.countP_eq P]
  clear hperm
  induction hsame with
  | nil => rfl
  | cons hr _ ih => rw [List.countP_cons, List.countP_cons, ih, hP _ _ hr]

/-- A rearranged history consists of edits of entities as well. -/
theorem onlyEdits (h : Rearranged rs rs') (hrs : ∀ r ∈ rs, r.OnlyEdits) :
    ∀ r ∈ rs', r.OnlyEdits := by
  obtain ⟨mid, hperm, hsame⟩ := h
  have hmid : ∀ r ∈ mid, r.OnlyEdits := fun r hr => hrs r (hperm.mem_iff.mpr hr)
  clear hperm
  induction hsame with
  | nil => exact hmid
  | cons hr _ ih =>
    rw [List.forall_mem_cons] at hmid ⊢
    exact ⟨hr.onlyEdits hmid.1, ih hmid.2⟩

end Rearranged

/-! ## Histories of edits -/

/-- Edits of entities remove nothing. -/
theorem Revision.OnlyEdits.removes (h : r.OnlyEdits) (x : QualifiedId) : r.removes x = false := by
  refine List.any_eq_false.mpr fun e he => ?_
  obtain ⟨id, rfl⟩ := h e he
  exact Bool.false_ne_true

/-- Edits of entities leave the tree as it is. -/
theorem foldl_after_of_onlyEdits (h : r.OnlyEdits) (t : SourceTree) :
    r.edits.foldl SourceTree.after t = t := by
  refine List.foldlRecOn r.edits SourceTree.after (motive := (· = t)) rfl fun t' ht' e he => ?_
  obtain ⟨id, rfl⟩ := h e he
  exact ht'

/-- Edits bring no node into the tree. -/
theorem treeBefore_of_onlyEdits (h : ∀ r ∈ rs, r.OnlyEdits) (k : Nat) :
    treeBefore rs k = .empty := by
  unfold treeBefore
  refine List.foldlRecOn (rs.take k) _ (motive := (· = SourceTree.empty)) rfl fun t ht r hr => ?_
  rw [foldl_after_of_onlyEdits (h r (List.mem_of_mem_take hr)), ht]

/-- What is in no tree is edited whenever an edit names it. -/
theorem mem_editedBy_of_onlyEdits (ls : Languages) (es : List Edit)
    (h : ∀ e ∈ es, ∃ id, e = .editEntity id) (before : Finset QualifiedId) :
    x ∈ editedBy ls .empty before es ↔ x ∈ before ∨ x ∈ es.map Edit.id := by
  induction es generalizing before with
  | nil => simp [editedBy]
  | cons e es ih =>
    obtain ⟨⟨id, rfl⟩, hes⟩ := List.forall_mem_cons.mp h
    show x ∈ editedBy ls .empty (insert id before) es ↔ x ∈ before ∨ x ∈ id :: es.map Edit.id
    rw [ih hes, Finset.mem_insert, List.mem_cons, or_assoc, or_left_comm]

/-- Where the tree is empty throughout, the entities that are edited are those that the edits name.
-/
theorem mem_editedBy_treeBefore (ls : Languages) (h : ∀ r ∈ rs, r.OnlyEdits)
    (hr : r.OnlyEdits) (k : Nat) :
    x ∈ editedBy ls (treeBefore rs k) ∅ r.edits ↔ x ∈ r.edits.map Edit.id := by
  rw [treeBefore_of_onlyEdits h, mem_editedBy_of_onlyEdits ls r.edits hr]
  exact or_iff_right (Finset.notMem_empty x)

/-- An entity is counted for the revisions that edit it. -/
theorem recount_of_onlyEdits (ls : Languages) (h : ∀ r ∈ rs, r.OnlyEdits) (x : QualifiedId) :
    recount ls rs x = rs.countP fun r => x ∈ r.edits.map Edit.id := by
  induction rs using List.reverseRecOn with
  | nil => rfl
  | append_singleton rs r ih =>
    obtain ⟨hrs, hr⟩ := List.forall_mem_append.mp h
    have hr := hr r List.mem_cons_self
    rw [recount_concat, hr.removes, ih hrs, List.countP_append, List.countP_singleton]
    simp only [mem_editedBy_treeBefore ls hrs hr, decide_eq_true_iff]
    rfl

/-- A pair is counted for the revisions that edit both entities and touch few files. -/
theorem jointRecount_of_onlyEdits (ls : Languages) (limit : Nat) (h : ∀ r ∈ rs, r.OnlyEdits)
    (x y : QualifiedId) :
    jointRecount ls limit rs x y =
      rs.countP fun r => (r.edits.map Edit.sourcePath).toFinset.card ≤ limit ∧
        x ∈ r.edits.map Edit.id ∧ y ∈ r.edits.map Edit.id := by
  induction rs using List.reverseRecOn with
  | nil => rfl
  | append_singleton rs r ih =>
    obtain ⟨hrs, hr⟩ := List.forall_mem_append.mp h
    have hr := hr r List.mem_cons_self
    rw [jointRecount_concat, hr.removes, hr.removes, ih hrs, List.countP_append,
      List.countP_singleton]
    simp only [mem_editedBy_treeBefore ls hrs hr, decide_eq_true_iff]
    rfl

namespace Rearranged

/-- Looking back, an entity has the same count in both histories. -/
theorem recount_eq (h : Rearranged rs rs') (hrs : ∀ r ∈ rs, r.OnlyEdits) (ls : Languages)
    (x : QualifiedId) : recount ls rs x = recount ls rs' x := by
  rw [recount_of_onlyEdits ls hrs, recount_of_onlyEdits ls (h.onlyEdits hrs)]
  refine h.countP_eq _ fun r r' hr => ?_
  rw [decide_eq_decide]
  exact hr.mem_map Edit.id x

/-- Looking back, two entities have the same joint count in both histories. -/
theorem jointRecount_eq (h : Rearranged rs rs') (hrs : ∀ r ∈ rs, r.OnlyEdits) (ls : Languages)
    (limit : Nat) (x y : QualifiedId) :
    jointRecount ls limit rs x y = jointRecount ls limit rs' x y := by
  rw [jointRecount_of_onlyEdits ls limit hrs, jointRecount_of_onlyEdits ls limit (h.onlyEdits hrs)]
  refine h.countP_eq _ fun r r' hr => ?_
  have hfiles : (r.edits.map Edit.sourcePath).toFinset = (r'.edits.map Edit.sourcePath).toFinset := by
    ext p
    rw [List.mem_toFinset, List.mem_toFinset]
    exact hr.mem_map Edit.sourcePath p
  rw [decide_eq_decide, hfiles, hr.mem_map Edit.id x, hr.mem_map Edit.id y]

end Rearranged

/-! ## Order does not matter -/

namespace ChangeCounter

/-- A history of edits is counted without error. -/
theorem exists_processAll_of_onlyEdits (h : ∀ r ∈ rs, r.OnlyEdits) (c : ChangeCounter) :
    ∃ c', c.processAll rs = .ok c' := by
  refine (processAll_applicable rs c).mpr fun r hr e he => ?_
  obtain ⟨id, rfl⟩ := h r hr e he
  trivial

variable {ω : Type} [Weight ω] [Std.TransCmp (Weight.order : ω → ω → Ordering)]

/-- Histories that only edit entities are counted without error, and however such a history is
rearranged, its context gives the same answers, with all thresholds: the tracked entities, the
counts and couplings, the neighbours, the entities of each file, and the list of coupled pairs. -/
theorem finish_rearranged (ls : Languages) (limit : Nat) (rs rs' : List Revision)
    (hedits : ∀ r ∈ rs, r.OnlyEdits) (h : Rearranged rs rs') (minRevisions : Nat)
    (minCoupling : ω) :
    ∃ c c', (start ls limit).processAll rs = .ok c ∧ (start ls limit).processAll rs' = .ok c' ∧
      Context.SameAnswers (c.finish minRevisions minCoupling)
        (c'.finish minRevisions minCoupling) := by
  obtain ⟨c, hc⟩ := exists_processAll_of_onlyEdits hedits (start ls limit)
  obtain ⟨c', hc'⟩ := exists_processAll_of_onlyEdits (h.onlyEdits hedits) (start ls limit)
  have hr := recounted_processAll ls limit rs c hc
  have hr' := recounted_processAll ls limit rs' c' hc'
  have hcontext : Context.Same (c.context : Context ω) c'.context := by
    refine same_context hr.sound hr'.sound ?_ ?_
    · intro x
      rw [hr.changes, hr'.changes, h.recount_eq hedits]
    · intro x y hxy
      rw [hr.joint x y hxy, hr'.joint x y hxy, h.jointRecount_eq hedits]
  exact ⟨c, c', hc, hc', (hcontext.filter minRevisions minCoupling).sameAnswers⟩

/-- Three functions in two files, edited in pairs. -/
def editHistory : List Revision :=
  [.ofEdits [.editEntity sampleF, .editEntity sampleG],
    .ofEdits [.editEntity sampleG, .editEntity sampleH],
    .ofEdits [.editEntity sampleF, .editEntity sampleG]]

/-- The second revision first, and two edits made once more. -/
def rearrangedHistory : List Revision :=
  [.ofEdits [.editEntity sampleH, .editEntity sampleG, .editEntity sampleH],
    .ofEdits [.editEntity sampleF, .editEntity sampleG],
    .ofEdits [.editEntity sampleG, .editEntity sampleF, .editEntity sampleG]]

/-- One history is the other with its revisions and edits in another order, and with a repeated
edit. -/
theorem rearranged_editHistory : Rearranged editHistory rearrangedHistory := by
  refine ⟨_, List.Perm.swap _ _ _, .cons ?_ (.cons (fun e => Iff.rfl) (.cons ?_ .nil))⟩
  · intro e
    simp only [Revision.ofEdits, List.mem_cons, List.not_mem_nil, or_false]
    tauto
  · intro e
    simp only [Revision.ofEdits, List.mem_cons, List.not_mem_nil, or_false]
    tauto

/-- The answers are the same, while the function that was met first is now the one met last. -/
theorem finish_rearranged_handles :
    ∃ c c', (start {} 2).processAll editHistory = .ok c ∧
      (start {} 2).processAll rearrangedHistory = .ok c' ∧
      c.interner.get? sampleF = some 0 ∧ c'.interner.get? sampleF = some 2 ∧
      Context.SameAnswers (c.finish 2 (0.5 : Float)) (c'.finish 2 0.5) ∧
      ((c'.finish 2 (0.5 : Float)).coupledPairs none).map (fun p => (p.entityA, p.entityB)) =
        [(sampleF, sampleG)] := by
  have hedits : ∀ r ∈ editHistory, r.OnlyEdits := by
    simp [editHistory, Revision.ofEdits, Revision.OnlyEdits]
  obtain ⟨c, c', hc, hc', hsame⟩ := finish_rearranged {} 2 editHistory rearrangedHistory hedits
    rearranged_editHistory 2 (0.5 : Float)
  have hfirst : ((start {} 2).processAll editHistory).toOption.map (fun c =>
      (c.interner.get? sampleF, ((c.finish 2 (0.5 : Float)).coupledPairs none).map
        fun p => (p.entityA, p.entityB))) = some (some 0, [(sampleF, sampleG)]) := by
    decide +kernel
  have hlast : ((start {} 2).processAll rearrangedHistory).toOption.map
      (fun c => c.interner.get? sampleF) = some (some 2) := by
    decide +kernel
  rw [hc] at hfirst
  rw [hc'] at hlast
  obtain ⟨hhandle, hpairs⟩ := Prod.ext_iff.mp (Option.some.inj hfirst)
  refine ⟨c, c', hc, hc', hhandle, Option.some.inj hlast, hsame, ?_⟩
  rw [← hsame.coupledPairs]
  exact hpairs

end ChangeCounter

end Cochange
