import Cochange.Proofs.Counting.Handles
import Cochange.Proofs.Counting.Pairs
import Cochange.Proofs.Matrix.Cells
import Cochange.Proofs.Sets
import Cochange.Proofs.Tree.Ids

/-!
# What every state of the count satisfies

Counts, pairs and what a revision has edited so far are kept under handles, in three structures
that are changed at different times. `Sound` ties them together: handles stand for ids, pairs are
recorded in both orientations, and no pair was changed together more often than either of its
entities was changed.

One lemma for each operation says that it keeps this. They are put together along the data: an
edit (`Sound.visit`), the edits of a revision (`Sound.visitAll`), a revision that may fail half
way (`Sound.process`), and any number of revisions (`Sound.run`).
-/

namespace Cochange

namespace ChangeCounter

/-- The invariant of the count, `s.2` being what the revision under way has edited. -/
structure Sound (s : ChangeCounter × EditedSet) : Prop where
  interner : s.1.interner.Valid
  edited_known : ∀ h ∈ s.2, (s.1.interner.resolve? h).isSome
  changes_known : ∀ (h : Handle) n, s.1.changes[h]? = some n → (s.1.interner.resolve? h).isSome
  changes_bound : ∀ (h : Handle) n, s.1.changes[h]? = some n → 0 < n ∧ n ≤ s.1.revisions
  joint_symm : s.1.joint.Symmetric
  joint_irrefl : ∀ x, s.1.joint.get? x x = none
  joint_bound : ∀ (x y : Handle) n, s.1.joint.get? x y = some n →
    0 < n ∧ ∃ k, s.1.changes[x]? = some k ∧ n ≤ k

/-! ## Editing and forgetting -/

/-- Taking up an entity leaves it edited, by its handle. -/
theorem mem_edit (s : ChangeCounter × EditedSet) (id : QualifiedId) (h : Handle) :
    h ∈ (edit s id).2 ↔ h = (s.1.interner.intern id).1 ∨ h ∈ s.2 := by
  show h ∈ s.2.insert (s.1.interner.intern id).1 ↔ _
  rw [Std.ExtTreeSet.mem_insert, Std.compare_eq_iff_eq]
  simp only [eq_comm]

/-- What forgetting some entities does to everything that is kept under handles. -/
theorem foldl_forget (hs : List Handle) (s : ChangeCounter × EditedSet)
    (hsymm : s.1.joint.Symmetric) :
    (∀ h : Handle, (hs.foldl forget s).1.changes[h]? = if h ∈ hs then none else s.1.changes[h]?) ∧
    (∀ x y, (hs.foldl forget s).1.joint.get? x y =
      if x ∈ hs ∨ y ∈ hs then none else s.1.joint.get? x y) ∧
    (∀ h, h ∈ (hs.foldl forget s).2 ↔ h ∉ hs ∧ h ∈ s.2) := by
  induction hs generalizing s with
  | nil => simp
  | cons k hs ih =>
    obtain ⟨hc, hj, he⟩ := ih (forget s k) (hsymm.removeEntity k)
    refine ⟨fun h => ?_, fun x y => ?_, fun h => ?_⟩
    · rw [List.foldl_cons, hc]
      show (if h ∈ hs then none else (s.1.changes.erase k)[h]?) = _
      rw [Std.ExtTreeMap.getElem?_erase]
      by_cases hk : k = h
      · simp [hk]
      · simp [hk, Ne.symm hk]
    · rw [List.foldl_cons, hj]
      show (if x ∈ hs ∨ y ∈ hs then none else (s.1.joint.removeEntity k).get? x y) = _
      rw [hsymm.mirrored.get?_removeEntity]
      by_cases hx : x = k <;> by_cases hy : y = k <;> simp [hx, hy]
    · rw [List.foldl_cons, he]
      show h ∉ hs ∧ h ∈ s.2.erase k ↔ _
      rw [Std.ExtTreeSet.mem_erase, ne_eq, Std.compare_eq_iff_eq, List.mem_cons]
      tauto

/-- Forgetting leaves the handles as they are. -/
theorem foldl_forget_interner (hs : List Handle) (s : ChangeCounter × EditedSet) :
    (hs.foldl forget s).1.interner = s.1.interner := by
  induction hs generalizing s with
  | nil => rfl
  | cons k hs ih => rw [List.foldl_cons, ih]; rfl

/-- How many revisions are counted so far, and how many of them are bulk changes. -/
def tally (c : ChangeCounter) : Nat × Nat :=
  (c.revisions, c.bulkRevisions)

/-- What is done to any number of entities counts no revision if it counts none for one. -/
theorem foldl_tally {α : Type} {f : ChangeCounter × EditedSet → α → ChangeCounter × EditedSet}
    (hf : ∀ s a, (f s a).1.tally = s.1.tally) (as : List α) (s : ChangeCounter × EditedSet) :
    (as.foldl f s).1.tally = s.1.tally := by
  induction as generalizing s with
  | nil => rfl
  | cons a as ih => rw [List.foldl_cons, ih, hf]

theorem foldl_forget_revisions (hs : List Handle) (s : ChangeCounter × EditedSet) :
    (hs.foldl forget s).1.revisions = s.1.revisions :=
  congrArg Prod.fst (foldl_tally (f := forget) (fun _ _ => rfl) hs s)

/-! ## Counting -/

/-- Each entity of a list without repetitions has one change more. -/
theorem getElem?_foldl_alter :
    ∀ (hs : List Handle) (m : Std.ExtTreeMap Handle Nat), hs.Nodup → ∀ h : Handle,
      (hs.foldl (fun m h => m.alter h fun n => some (n.getD 0 + 1)) m)[h]? =
        if h ∈ hs then raise m[h]? else m[h]?
  | [], m, _, h => by simp
  | k :: hs, m, hnd, h => by
    obtain ⟨hk, hnd'⟩ := List.nodup_cons.mp hnd
    rw [List.foldl_cons, getElem?_foldl_alter hs _ hnd', Std.ExtTreeMap.getElem?_alter]
    by_cases hkh : k = h
    · rw [← hkh, if_neg hk]
      simp [raise]
    · simp [hkh, Ne.symm hkh]

theorem count_changes_eq (c : ChangeCounter) (edited : EditedSet) (files : Nat) :
    (c.count edited files).changes =
      edited.toList.foldl (fun m h => m.alter h fun n => some (n.getD 0 + 1)) c.changes := by
  unfold count
  simp only
  split <;> rfl

/-- Counting a revision raises the changes of what is edited. -/
theorem count_changes (c : ChangeCounter) (edited : EditedSet) (files : Nat) (h : Handle) :
    (c.count edited files).changes[h]? =
      if h ∈ edited then raise c.changes[h]? else c.changes[h]? := by
  rw [count_changes_eq, getElem?_foldl_alter _ _ (nodup_toList edited)]
  simp only [Std.ExtTreeSet.mem_toList]

/-- Counting a revision raises the cells of what is edited together, unless it is a bulk change. -/
theorem count_joint (c : ChangeCounter) (edited : EditedSet) (files : Nat) (x y : Handle) :
    (c.count edited files).joint.get? x y =
      if files ≤ c.maxChangeSet ∧ x ∈ edited ∧ y ∈ edited ∧ x ≠ y then raise (c.joint.get? x y)
      else c.joint.get? x y := by
  unfold count
  simp only
  by_cases hf : c.maxChangeSet < files
  · rw [if_pos hf, if_neg (by omega)]
  · rw [if_neg hf]
    show ((pairsOf edited.toList).foldl countPair c.joint).get? x y = _
    rw [get?_countPairs _ _ (nodup_toList edited)]
    simp only [Std.ExtTreeSet.mem_toList, Nat.le_of_not_lt hf, true_and]

theorem count_interner (c : ChangeCounter) (edited : EditedSet) (files : Nat) :
    (c.count edited files).interner = c.interner := by
  unfold count
  simp only
  split <;> rfl

/-- Every revision that is counted counts as one. -/
theorem count_revisions (c : ChangeCounter) (edited : EditedSet) (files : Nat) :
    (c.count edited files).revisions = c.revisions + 1 := by
  unfold count
  simp only
  split <;> rfl

/-- A revision that touches more files than the limit is a bulk change. -/
theorem count_bulkRevisions (c : ChangeCounter) (edited : EditedSet) (files : Nat) :
    (c.count edited files).bulkRevisions =
      c.bulkRevisions + if c.maxChangeSet < files then 1 else 0 := by
  unfold count
  simp only
  split <;> rfl

/-- Counting touches neither the settings nor the tree. -/
theorem count_setting (c : ChangeCounter) (edited : EditedSet) (files : Nat) :
    (c.count edited files).languages = c.languages ∧
    (c.count edited files).maxChangeSet = c.maxChangeSet ∧
    (c.count edited files).tree = c.tree := by
  unfold count
  simp only
  split <;> exact ⟨rfl, rfl, rfl⟩

/-! ## The operations keep the invariant -/

/-- A counter that has seen nothing is sound. -/
theorem sound_start (languages : Languages) (maxChangeSet : Nat) :
    Sound (start languages maxChangeSet, ∅) where
  interner := Interner.valid_empty
  edited_known _ hh := absurd hh Std.ExtTreeSet.not_mem_empty
  changes_known _ n hn := by simp [start] at hn
  changes_bound _ n hn := by simp [start] at hn
  joint_symm := SparseMatrix.symmetric_empty
  joint_irrefl x := SparseMatrix.get?_empty x x
  joint_bound x y n hn := by
    rw [show (start languages maxChangeSet).joint = .empty from rfl,
      SparseMatrix.get?_empty] at hn
    cases hn

namespace Sound

variable {s : ChangeCounter × EditedSet}

/-- Whether a counter is sound does not depend on its tree. -/
theorem withTree (hs : Sound s) (tree : SourceTree) : Sound ({ s.1 with tree }, s.2) :=
  ⟨hs.interner, hs.edited_known, hs.changes_known, hs.changes_bound, hs.joint_symm,
    hs.joint_irrefl, hs.joint_bound⟩

/-- What is edited can be given up at any time: this is what a failed revision does. -/
theorem drop (hs : Sound s) : Sound (s.1, ∅) where
  interner := hs.interner
  edited_known _ hh := absurd hh Std.ExtTreeSet.not_mem_empty
  changes_known := hs.changes_known
  changes_bound := hs.changes_bound
  joint_symm := hs.joint_symm
  joint_irrefl := hs.joint_irrefl
  joint_bound := hs.joint_bound

/-- A handle with a meaning keeps it when another id is interned. -/
theorem isSome_resolve?_intern (hs : Sound s) (id : QualifiedId) {h : Handle}
    (hh : (s.1.interner.resolve? h).isSome) :
    ((s.1.interner.intern id).2.resolve? h).isSome := by
  rw [Interner.resolve?_intern hs.interner]
  split
  next => rfl
  next => exact hh

/-- Taking up an entity keeps a counter sound. -/
theorem edit (hs : Sound s) (id : QualifiedId) : Sound (edit s id) where
  interner := hs.interner.intern id
  edited_known h hh := by
    rcases (mem_edit s id h).mp hh with he | hold
    · show ((s.1.interner.intern id).2.resolve? h).isSome = true
      rw [Interner.resolve?_intern hs.interner, if_pos he]
      rfl
    · exact hs.isSome_resolve?_intern id (hs.edited_known h hold)
  changes_known h n hn := hs.isSome_resolve?_intern id (hs.changes_known h n hn)
  changes_bound := hs.changes_bound
  joint_symm := hs.joint_symm
  joint_irrefl := hs.joint_irrefl
  joint_bound := hs.joint_bound

theorem foldl_edit (hs : Sound s) (ids : List QualifiedId) :
    Sound (ids.foldl ChangeCounter.edit s) := by
  induction ids generalizing s with
  | nil => exact hs
  | cons id ids ih => exact ih (hs.edit id)

/-- Forgetting entities keeps a counter sound. -/
theorem foldl_forget (hs : Sound s) (hd : List Handle) : Sound (hd.foldl forget s) := by
  obtain ⟨hc, hj, he⟩ := ChangeCounter.foldl_forget hd s hs.joint_symm
  have hi := foldl_forget_interner hd s
  constructor
  · rw [hi]
    exact hs.interner
  · intro h hh
    rw [hi]
    exact hs.edited_known h ((he h).mp hh).2
  · intro h n hn
    rw [hi]
    rw [hc] at hn
    split at hn
    · cases hn
    · exact hs.changes_known h n hn
  · intro h n hn
    rw [foldl_forget_revisions]
    rw [hc] at hn
    split at hn
    · cases hn
    · exact hs.changes_bound h n hn
  · intro x y
    rw [hj, hj, hs.joint_symm x y]
    simp only [or_comm]
  · intro x
    rw [hj, hs.joint_irrefl]
    split <;> rfl
  · intro x y n hn
    rw [hj] at hn
    split at hn
    · cases hn
    · next hxy =>
      obtain ⟨hpos, k, hk, hle⟩ := hs.joint_bound x y n hn
      exact ⟨hpos, k, by rw [hc, if_neg fun hx => hxy (Or.inl hx)]; exact hk, hle⟩

/-- Counting raises the entities of a pair whenever it raises the pair. -/
theorem count (hs : Sound s) (files : Nat) : Sound (s.1.count s.2 files, ∅) where
  interner := by
    rw [count_interner]
    exact hs.interner
  edited_known _ hh := absurd hh Std.ExtTreeSet.not_mem_empty
  changes_known h n hn := by
    rw [count_interner]
    rw [count_changes] at hn
    split at hn
    next he => exact hs.edited_known h he
    next => exact hs.changes_known h n hn
  changes_bound h n hn := by
    rw [count_revisions]
    rw [count_changes] at hn
    split at hn
    · cases hc : s.1.changes[h]? with
      | none =>
        rw [hc] at hn
        cases hn
        exact ⟨by simp, by simp⟩
      | some k =>
        rw [hc] at hn
        cases hn
        have hk := hs.changes_bound h k hc
        simp only [Option.getD_some]
        omega
    · have hb := hs.changes_bound h n hn
      omega
  joint_symm x y := by
    rw [count_joint, count_joint, hs.joint_symm x y]
    exact if_congr ⟨fun h => ⟨h.1, h.2.2.1, h.2.1, h.2.2.2.symm⟩,
      fun h => ⟨h.1, h.2.2.1, h.2.1, h.2.2.2.symm⟩⟩ rfl rfl
  joint_irrefl x := by
    rw [count_joint, if_neg fun h => h.2.2.2 rfl]
    exact hs.joint_irrefl x
  joint_bound x y n hn := by
    rw [count_joint] at hn
    split at hn
    next hxy =>
      rw [count_changes, if_pos hxy.2.1]
      -- the pair and the entity are both raised by one
      cases hj : s.1.joint.get? x y with
      | none =>
        rw [hj] at hn
        cases hn
        exact ⟨by simp, _, rfl, by simp⟩
      | some m =>
        rw [hj] at hn
        cases hn
        obtain ⟨-, k, hk, hle⟩ := hs.joint_bound x y m hj
        rw [hk]
        exact ⟨by simp, _, rfl, by simpa using hle⟩
    next =>
      obtain ⟨hpos, k, hk, hle⟩ := hs.joint_bound x y n hn
      refine ⟨hpos, ?_⟩
      rw [count_changes, hk]
      split
      · exact ⟨_, rfl, by simp only [Option.getD_some]; omega⟩
      · exact ⟨k, rfl, hle⟩

/-- An edit keeps a counter sound. -/
theorem visit (hs : Sound s) {e : Edit} {s' : ChangeCounter × EditedSet}
    (hv : visit s e = .ok s') : Sound s' := by
  cases e with
  | addNode id node =>
    simp only [ChangeCounter.visit] at hv
    split at hv
    next => cases hv
    next tree added _ =>
      cases hv
      exact (hs.withTree tree).foldl_edit _
  | removeNode id =>
    cases hv
    exact (hs.withTree _).foldl_forget _
  | editEntity id =>
    simp only [ChangeCounter.visit] at hv
    split at hv
    next =>
      cases hv
      split
      next => exact hs.edit id
      next => exact hs
    next =>
      cases hv
      exact hs.edit id

/-- The edits of a revision keep a counter sound, up to one that fails. -/
theorem visitAll (hs : Sound s) (es : List Edit) : Sound (visitAll s es).1 := by
  induction es generalizing s with
  | nil => exact hs
  | cons e es ih =>
    unfold ChangeCounter.visitAll
    split
    next => exact hs
    next s' hv => exact ih (hs.visit hv)

/-- A revision keeps a counter sound, one that fails as well. -/
theorem process {c : ChangeCounter} (hc : Sound (c, ∅)) (r : Revision) :
    Sound ((c.process r).1, ∅) := by
  have hv := hc.visitAll r.edits
  unfold ChangeCounter.process
  split
  -- a failed revision keeps its removals and gives up what it has edited
  next c' edited why heq =>
    rw [heq] at hv
    exact hv.drop
  next c' edited heq =>
    rw [heq] at hv
    exact hv.count _

end Sound

/-- The count after some revisions, going on behind those that fail. -/
def run (c : ChangeCounter) (rs : List Revision) : ChangeCounter :=
  rs.foldl (fun c r => (c.process r).1) c

/-- Every history leaves a sound counter behind. -/
theorem Sound.run {c : ChangeCounter} (hc : Sound (c, ∅)) (rs : List Revision) :
    Sound (c.run rs, ∅) := by
  induction rs generalizing c with
  | nil => exact hc
  | cons r rs ih => exact ih (hc.process r)

/-! ## Revisions are counted at most once each -/

/-- Single edits count no revision. -/
theorem visit_tally {s s' : ChangeCounter × EditedSet} {e : Edit}
    (hv : visit s e = .ok s') : s'.1.tally = s.1.tally := by
  cases e with
  | addNode id node =>
    simp only [visit] at hv
    split at hv
    next => cases hv
    next =>
      cases hv
      exact foldl_tally (f := edit) (fun _ _ => rfl) _ _
  | removeNode id =>
    cases hv
    exact foldl_tally (f := forget) (fun _ _ => rfl) _ _
  | editEntity id =>
    simp only [visit] at hv
    split at hv
    next =>
      cases hv
      split <;> rfl
    next =>
      cases hv
      rfl

theorem visitAll_tally (es : List Edit) (s : ChangeCounter × EditedSet) :
    (visitAll s es).1.1.tally = s.1.tally := by
  induction es generalizing s with
  | nil => rfl
  | cons e es ih =>
    unfold visitAll
    split
    next => rfl
    next s' hv => rw [ih, visit_tally hv]

/-- A revision counts once at most. -/
theorem process_revisions_le (c : ChangeCounter) (r : Revision) :
    (c.process r).1.revisions ≤ c.revisions + 1 := by
  have hv := congrArg Prod.fst (visitAll_tally r.edits (c, ∅))
  unfold process
  split
  next c' edited why heq =>
    rw [heq] at hv
    exact Nat.le_succ_of_le (Nat.le_of_eq hv)
  next c' edited heq =>
    rw [heq] at hv
    rw [count_revisions]
    exact Nat.le_of_eq (congrArg (· + 1) hv)

/-- A history has no more counted revisions than revisions. -/
theorem run_revisions_le (rs : List Revision) (c : ChangeCounter) :
    (c.run rs).revisions ≤ c.revisions + rs.length := by
  induction rs generalizing c with
  | nil => exact Nat.le_refl _
  | cons r rs ih =>
    have h₁ := process_revisions_le c r
    have h₂ : ((c.process r).1.run rs).revisions ≤ _ := ih _
    show ((c.process r).1.run rs).revisions ≤ c.revisions + (rs.length + 1)
    omega

end ChangeCounter

/-! ## Samples -/

/-- What is told by its result has succeeded. -/
theorem exists_ok {ε α β : Type} {x : Except ε α} {f : α → β} {y : β}
    (h : x.toOption.map f = some y) : ∃ a, x = .ok a ∧ f a = y := by
  cases x with
  | error why => cases h
  | ok a => exact ⟨a, rfl, Option.some.inj h⟩

theorem january_le : 1 ≤ 12 := by decide

theorem midnight_lt : 0 < 86400 := by decide

/-- A revision with nothing but its edits. -/
def Revision.ofEdits (edits : List Edit) : Revision where
  id := "r"
  date :=
    { date := ⟨2024, 1, 1, by decide, january_le, by decide, by decide⟩
      time := ⟨0, 0, midnight_lt, by decide, by decide⟩ }
  author := "a"
  edits

/-- The id of a member that stands directly in a file. -/
def QualifiedId.inFile (path name : String) (hp : IsToken path.toList)
    (hm : IsMember name.toList) : QualifiedId :=
  { path := ⟨path, hp⟩, types := [], member := some ⟨name, hm⟩ }

/-- A source file. -/
def sampleFile : QualifiedId :=
  .ofPath ⟨"a.rs", isToken_samplePath⟩

/-- A function in it. -/
def sampleF : QualifiedId :=
  .inFile "a.rs" "f()" isToken_samplePath isMember_sampleSignature

/-- Another function in it. -/
def sampleG : QualifiedId :=
  .inFile "a.rs" "g()" isToken_samplePath (by decide)

/-- A variable in it, which is not tracked. -/
def sampleV : QualifiedId :=
  .inFile "a.rs" "v" isToken_samplePath (by decide)

/-- A function in another file. -/
def sampleH : QualifiedId :=
  .inFile "b.rs" "h()" (by decide) (by decide)

end Cochange
