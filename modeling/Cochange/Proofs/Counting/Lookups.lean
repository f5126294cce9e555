import Cochange.Proofs.Contexts.Lookups

/-!
# Handles in the count

The count keeps handles in three places: under the changes, among what is edited, and in the cells
of pairs. An entity leaves them at different times, but its handle is never given up, so all that
are kept are below the number of ids (`Sound.covered`).

Each operation is written down once more, so that it gives nothing as soon as a handle stands for no
id, or as soon as a new handle is no 32-bit word. It gives what the operation itself does, as long
as there are not too many ids behind it: one lemma for an edit (`checkedVisit_eq`), for the edits of
a revision, for a revision that may fail half way, for any number of revisions (`checkedRun_eq`),
and for the context of the count (`checkedFinish_eq`).

Main result: `handles_stay_known`.
-/

namespace Cochange

namespace ChangeCounter

variable {s s' : ChangeCounter × EditedSet} {c : ChangeCounter}

/-! ## Handles below the number of ids -/

/-- Whether the handles that are counted, edited or recorded in a cell are below the number of
ids. -/
structure Covered (s : ChangeCounter × EditedSet) : Prop where
  changes : ∀ (h : Nat) n, s.1.changes[h]? = some n → h < s.1.interner.size
  edited : ∀ h : Nat, h ∈ s.2 → h < s.1.interner.size
  joint : s.1.joint.Below s.1.interner.size

theorem Sound.covered (hs : Sound s) : Covered s where
  changes h n hn := Interner.isSome_resolve?.mp (hs.changes_known h n hn)
  edited h hh := Interner.isSome_resolve?.mp (hs.edited_known h hh)
  joint x y n hn := by
    obtain ⟨-, k, l, hk, hl, -⟩ := hs.changes_of_joint hn
    exact ⟨Interner.isSome_resolve?.mp (hs.changes_known x k hk),
      Interner.isSome_resolve?.mp (hs.changes_known y l hl)⟩

/-! ## Operations that check each handle -/

/-- An entity is edited, if its handle is a word. -/
def checkedEdit (s : ChangeCounter × EditedSet) (id : QualifiedId) :
    Option (ChangeCounter × EditedSet) :=
  if (s.1.interner.intern id).1 < 2 ^ 32 then some (edit s id) else none

/-- The entities counted or edited that are within a node, if all of them can be looked up. -/
def checkedWithin (s : ChangeCounter × EditedSet) (outer : QualifiedId) : Option (List Handle) :=
  let named := (s.1.changes.keys ++ s.2.toList).mapM fun h =>
    (s.1.interner.resolve? h).map fun id => (h, id)
  named.map fun ns => (ns.filter fun n => n.2.isWithin outer).map (·.1)

/-- One edit of a revision. -/
def checkedVisit (s : ChangeCounter × EditedSet) :
    Edit → Option (Except IdError (ChangeCounter × EditedSet))
  | .addNode id node =>
    match s.1.tree.add id node with
    | .error e => some (.error e)
    | .ok (tree, added) =>
      let tracked := added.filter fun a => s.1.languages.isTrackable a.1 a.2
      ((tracked.map (·.1)).foldlM checkedEdit ({ s.1 with tree }, s.2)).map .ok
  | .removeNode id =>
    let s := ({ s.1 with tree := s.1.tree.remove id }, s.2)
    (checkedWithin s id).map fun hs => .ok (hs.foldl forget s)
  | .editEntity id =>
    match s.1.tree.get? id with
    | some kind =>
      if s.1.languages.isTrackable id kind then (checkedEdit s id).map .ok else some (.ok s)
    | none => (checkedEdit s id).map .ok

/-- The edits of a revision up to the first that fails. -/
def checkedVisitAll (s : ChangeCounter × EditedSet) :
    List Edit → Option ((ChangeCounter × EditedSet) × Option IdError)
  | [] => some (s, none)
  | e :: es =>
    match checkedVisit s e with
    | none => none
    | some (.error why) => some (s, some why)
    | some (.ok s) => checkedVisitAll s es

/-- A revision. -/
def checkedProcess (c : ChangeCounter) (r : Revision) : Option (ChangeCounter × Option IdError) :=
  (checkedVisitAll (c, ∅) r.edits).map fun
    | ((c, _), some why) => (c, some why)
    | ((c, edited), none) => (c.count edited r.changeSet.size, none)

/-- Some revisions, going on behind those that fail. -/
def checkedRun (c : ChangeCounter) (rs : List Revision) : Option ChangeCounter :=
  rs.foldlM (fun c r => (c.checkedProcess r).map (·.1)) c

section Finish

variable {ω : Type} [Weight ω]

/-- The coupling of two entities. Both are looked up when a count is missing. -/
def checkedCouplingOf (c : ChangeCounter) (x y : Handle) (joint : Nat) : Option ω :=
  match c.changes[x]?, c.changes[y]? with
  | some _, some _ => some (c.couplingOf x y joint)
  | _, _ => do
    let _ ← c.interner.resolve? x
    let _ ← c.interner.resolve? y
    return c.couplingOf x y joint

/-- The context with thresholds applied; its cells are looked up as its pairs are counted. -/
def checkedFinish (c : ChangeCounter) (minRevisions : Nat) (minCoupling : ω) :
    Option (Context ω) := do
  let _ ← c.joint.cells.mapM fun cell =>
    (c.checkedCouplingOf cell.1 cell.2.1 cell.2.2 : Option ω)
  let _ ← (c.finish minRevisions minCoupling).checkedCells
  return c.finish minRevisions minCoupling

end Finish

/-! ## No check fails -/

/-- A handle is below the number of ids as soon as it is given. -/
theorem checkedEdit_eq (hs : Sound s) {id : QualifiedId}
    (hroom : (edit s id).1.interner.size ≤ 2 ^ 32) : checkedEdit s id = some (edit s id) := by
  have hgiven : (s.1.interner.intern id).2.get? id = some (s.1.interner.intern id).1 := by
    rw [Interner.get?_intern, if_pos rfl]
  exact if_pos (Nat.lt_of_lt_of_le ((hs.interner.intern id).lt_size hgiven) hroom)

/-- Taking up entities with checked handles succeeds as long as handles are left. -/
theorem foldlM_checkedEdit (ids : List QualifiedId) {s : ChangeCounter × EditedSet} (hs : Sound s)
    (hroom : (ids.foldl edit s).1.interner.size ≤ 2 ^ 32) :
    ids.foldlM checkedEdit s = some (ids.foldl edit s) := by
  induction ids generalizing s with
  | nil => rfl
  | cons id ids ih =>
    have hfirst : (edit s id).1.interner.size ≤ 2 ^ 32 :=
      Nat.le_trans (size_le_foldl_edit ids (edit s id)) hroom
    rw [List.foldlM_cons, checkedEdit_eq hs hfirst]
    exact ih (hs.edit id) hroom

/-- Which entities are within a node is decided by their ids alone. -/
theorem filter_resolved (t : Interner) (outer : QualifiedId) (hs : List Handle) :
    ((hs.filterMap fun h => (t.resolve? h).map fun id => (h, id)).filter
        fun n => n.2.isWithin outer).map (·.1) =
      hs.filter fun h =>
        match t.resolve? h with
        | none => false
        | some id => id.isWithin outer := by
  induction hs with
  | nil => rfl
  | cons h hs ih =>
    rw [List.filterMap_cons, List.filter_cons]
    cases t.resolve? h with
    | none => exact ih
    | some id =>
      dsimp only [Option.map_some]
      rw [List.filter_cons]
      split
      next => rw [List.map_cons, ih]
      next => exact ih

/-- Looking for what to forget meets known handles only. -/
theorem checkedWithin_eq (hs : Covered s) (outer : QualifiedId) :
    checkedWithin s outer = some (countedWithin s outer) := by
  unfold checkedWithin countedWithin
  rw [mapM_eq_some_filterMap]
  · exact congrArg some (filter_resolved ..)
  · intro h hh
    rw [Option.isSome_map, Interner.isSome_resolve?]
    rcases List.mem_append.mp hh with hcounted | hedited
    · obtain ⟨n, hn⟩ := exists_of_mem_keys hcounted
      exact hs.changes h n hn
    · exact hs.edited h (Std.ExtTreeSet.mem_toList.mp hedited)

/-- The step: an edit looks up known handles only, and gives words. -/
theorem checkedVisit_eq (hs : Sound s) (e : Edit)
    (hroom : ∀ s', visit s e = .ok s' → s'.1.interner.size ≤ 2 ^ 32) :
    checkedVisit s e = some (visit s e) := by
  cases e with
  | addNode id node =>
    rw [visit] at hroom ⊢
    rw [checkedVisit]
    cases hadd : s.1.tree.add id node with
    | error why => rfl
    | ok r =>
      rw [hadd] at hroom
      dsimp only at hroom ⊢
      rw [foldlM_checkedEdit _ (hs.withTree r.1) (hroom _ rfl)]
      rfl
  | removeNode id =>
    rw [visit, checkedVisit, checkedWithin_eq (hs.withTree _).covered]
    rfl
  | editEntity id =>
    rw [visit] at hroom ⊢
    rw [checkedVisit]
    cases hkind : s.1.tree.get? id with
    | none =>
      rw [hkind] at hroom
      dsimp only at hroom ⊢
      rw [checkedEdit_eq hs (hroom _ rfl)]
      rfl
    | some kind =>
      rw [hkind] at hroom
      dsimp only at hroom ⊢
      split at hroom
      next htracked =>
        rw [if_pos htracked, if_pos htracked, checkedEdit_eq hs (hroom _ rfl)]
        rfl
      next htracked => rw [if_neg htracked, if_neg htracked]

/-- The edits of a revision with checked handles do what they do without the checks. -/
theorem checkedVisitAll_eq (es : List Edit) {s : ChangeCounter × EditedSet} (hs : Sound s)
    (hroom : (visitAll s es).1.1.interner.size ≤ 2 ^ 32) :
    checkedVisitAll s es = some (visitAll s es) := by
  induction es generalizing s with
  | nil => rfl
  | cons e es ih =>
    rw [visitAll] at hroom ⊢
    -- no edit takes an id back, so there was room enough before the last one
    have hfirst : ∀ s', visit s e = .ok s' → s'.1.interner.size ≤ 2 ^ 32 := by
      intro s' hv
      rw [hv] at hroom
      exact Nat.le_trans (size_le_visitAll es s') hroom
    rw [checkedVisitAll, checkedVisit_eq hs e hfirst]
    cases hv : visit s e with
    | error why => rfl
    | ok s' =>
      rw [hv] at hroom
      exact ih (hs.visit hv) hroom

/-- A revision with checked handles does what it does without the checks. -/
theorem checkedProcess_eq (hc : Sound (c, ∅)) (r : Revision)
    (hroom : (c.process r).1.interner.size ≤ 2 ^ 32) : c.checkedProcess r = some (c.process r) := by
  rw [interner_process] at hroom
  have hvisited : (visitAll (c, ∅) r.edits).1.1.interner.size ≤ 2 ^ 32 := by
    rw [interner_visitAll]
    exact hroom
  unfold checkedProcess process
  rw [checkedVisitAll_eq r.edits hc hvisited]
  generalize visitAll (c, ∅) r.edits = reached
  obtain ⟨⟨c', edited⟩, error⟩ := reached
  cases error <;> rfl

/-- The run: no handle that is looked up in some revisions stands for no id. -/
theorem checkedRun_eq (rs : List Revision) {c : ChangeCounter} (hc : Sound (c, ∅))
    (hroom : (c.run rs).interner.size ≤ 2 ^ 32) : c.checkedRun rs = some (c.run rs) := by
  induction rs generalizing c with
  | nil => rfl
  | cons r rs ih =>
    have hfirst : (c.process r).1.interner.size ≤ 2 ^ 32 :=
      Nat.le_trans (size_le_run rs (c.process r).1) hroom
    rw [checkedRun, List.foldlM_cons, checkedProcess_eq hc r hfirst]
    exact ih (hc.process r) hroom

section Finish

variable {ω : Type} [Weight ω]

theorem Sound.covered_context (hc : Sound (c, ∅)) : (c.context : Context ω).Covered where
  changes := hc.covered.changes
  joint := hc.covered.joint
  coupling := hc.covered.joint.filterMap _

/-- No count of a recorded pair is missing, so only the pairs that stay are looked up. -/
theorem checkedFinish_eq (hc : Sound (c, ∅)) (minRevisions : Nat) (minCoupling : ω) :
    c.checkedFinish minRevisions minCoupling = some (c.finish minRevisions minCoupling) := by
  have hcounted : ∀ cell ∈ c.joint.cells,
      (c.checkedCouplingOf cell.1 cell.2.1 cell.2.2 : Option ω).isSome = true := by
    intro cell hcell
    obtain ⟨-, k, l, hk, hl, -⟩ := hc.changes_of_joint (SparseMatrix.mem_cells.mp hcell)
    unfold checkedCouplingOf
    rw [show c.changes[cell.1]? = some k from hk, show c.changes[cell.2.1]? = some l from hl]
    rfl
  have hcells : (c.finish minRevisions minCoupling).checkedCells =
      some (c.finish minRevisions minCoupling).cells :=
    (hc.covered_context.filter minRevisions minCoupling).checkedCells_eq
  rw [checkedFinish, mapM_eq_some_filterMap hcounted, hcells]
  rfl

end Finish

/-! ## All points of a history -/

/-- What holds of handles behind the revisions `rs` and, of the next one, the edits `es`. -/
structure HandlesKnown (ls : Languages) (limit : Nat) (rs : List Revision) (es : List Edit) :
    Prop where
  /-- List and index number the ids that were met, one to one. -/
  numbers : (underWay ls limit rs es).1.interner.Numbers (metUnderWay ls limit rs es)
  /-- All numbers are words. -/
  words : (underWay ls limit rs es).1.interner.size < 2 ^ 32
  /-- What had a handle before has it still, whatever was removed since. -/
  stable : ∀ rs₀ es₀, IsEarlier rs₀ es₀ rs es → ∀ x h,
    (underWay ls limit rs₀ es₀).1.interner.get? x = some h →
      (underWay ls limit rs es).1.interner.get? x = some h
  /-- The handles that are kept are below the number of ids. -/
  covered : Covered (underWay ls limit rs es)
  /-- Each handle that was looked up on the way stood for an id. -/
  revisions : (start ls limit).checkedRun rs = some ((start ls limit).run rs)
  edits : checkedVisitAll ((start ls limit).run rs, ∅) es =
    some (visitAll ((start ls limit).run rs, ∅) es)

/-- As long as few ids are met, no operation meets an unknown handle. -/
theorem handlesKnown {ls : Languages} {limit : Nat} {rs : List Revision} {es : List Edit}
    (hfew : (metUnderWay ls limit rs es).eraseDups.length < 2 ^ 32) :
    HandlesKnown ls limit rs es := by
  have hstart : Sound (start ls limit, ∅) := sound_start ls limit
  have hnumbers := numbers_underWay ls limit rs es
  have hwords : (underWay ls limit rs es).1.interner.size < 2 ^ 32 := by
    rw [← hnumbers.listed, Array.length_toList] at hfew
    exact hfew
  have hrun : ((start ls limit).run rs).interner.size ≤ 2 ^ 32 :=
    Nat.le_trans (size_le_visitAll es ((start ls limit).run rs, ∅)) (Nat.le_of_lt hwords)
  exact
    { numbers := hnumbers
      words := hwords
      stable := fun rs₀ es₀ h x k hk => get?_underWay_of_earlier h hk
      covered := (sound_underWay ls limit rs es).covered
      revisions := checkedRun_eq rs hstart hrun
      edits := checkedVisitAll_eq es (hstart.run rs) (Nat.le_of_lt hwords) }

/-- In every state of the count, failed revisions included, ids and handles belong to each other one
to one, no handle is ever moved, and no handle that is kept or looked up stands for no id, as long
as there are fewer than 2^32 ids. The same holds of the context of the count and of every context
that is made from it by thresholds. -/
theorem handles_stay_known {ω : Type} [Weight ω] (ls : Languages) (limit : Nat)
    (rs : List Revision) (es : List Edit)
    (hfew : (metUnderWay ls limit rs es).eraseDups.length < 2 ^ 32) (minRevisions : Nat)
    (minCoupling : ω) (fs : List (Nat × ω)) :
    HandlesKnown ls limit rs es ∧
    ((start ls limit).run rs).checkedFinish minRevisions minCoupling =
      some (((start ls limit).run rs).finish minRevisions minCoupling) ∧
    (fs.foldl (fun c f => c.filter f.1 f.2)
      (((start ls limit).run rs).finish minRevisions minCoupling)).NumberedBy
        ((start ls limit).run rs).interner := by
  have hsound : Sound ((start ls limit).run rs, ∅) := (sound_start ls limit).run rs
  have hcovered := (hsound.covered_context.filter minRevisions minCoupling).foldl_filter fs
  exact ⟨handlesKnown hfew, checkedFinish_eq hsound minRevisions minCoupling,
    Context.interner_foldl_filter fs _, hcovered, hcovered.looksUp⟩

/-- An entity is removed, and edited again behind another one. -/
def readdingEdits : List Edit :=
  [.removeNode sampleF, .editEntity sampleH, .editEntity sampleF]

/-- The handle of an entity that is removed twice, once in a revision that fails, is the one that
its first edit gave it. -/
theorem handles_stay_known_readded :
    (metUnderWay {} 3 failingHistory readdingEdits).eraseDups.length < 2 ^ 32 ∧
    (underWay {} 3 [] [.editEntity sampleF]).1.interner.get? sampleF = some 0 ∧
    (underWay {} 3 failingHistory readdingEdits).1.interner.get? sampleF = some 0 ∧
    (underWay {} 3 failingHistory readdingEdits).1.interner.ids.toList =
      [sampleF, sampleG, sampleH] ∧
    ((((start {} 3).run failingHistory).finish 1 (0 : Rat)).filter 1 (1 / 2)).checkedNeighbors
      sampleF = some [(sampleG, 1 / 2)] := by
  have hfew : (metUnderWay {} 3 failingHistory readdingEdits).eraseDups.length < 2 ^ 32 := by
    decide +kernel
  have hearlier : IsEarlier [] [.editEntity sampleF] failingHistory readdingEdits :=
    Or.inr ⟨_, _, rfl, List.prefix_append _ _⟩
  have hfirst : (underWay {} 3 [] [.editEntity sampleF]).1.interner.get? sampleF = some 0 := by
    decide +kernel
  obtain ⟨hknown, -, hcontext⟩ :=
    handles_stay_known {} 3 failingHistory readdingEdits hfew 1 (0 : Rat) [(1, 1 / 2)]
  refine ⟨hfew, hfirst, hknown.stable _ _ hearlier _ _ hfirst, ?_, ?_⟩
  · rw [hknown.numbers.listed]
    decide +kernel
  · exact (hcontext.looksUp.neighbors sampleF).trans (by decide +kernel)

end ChangeCounter

end Cochange
