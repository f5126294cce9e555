import Cochange.Proofs.Counting.Sound
import Mathlib.Algebra.Order.Field.Rat
import Mathlib.Algebra.Order.Field.Basic
import Mathlib.Tactic.Linarith
import Mathlib.Tactic.NormNum

/-!
# Well-formed contexts

`Context.WellFormed` says what a context promises about its recorded pairs: they are recorded in
both orientations and in both matrices, between two different tracked entities, and the number of
joint changes lies between one and the smaller of the two change counts. Then the coupling, the
joint changes relative to the changes of either entity, is a proper fraction.

* `context_wellFormed`: the context of a sound count is well-formed.
* `WellFormed.filter`: filtering keeps it, whatever the thresholds.
* `finish_filters_wellFormed`: so every context that can be made from a history is well-formed,
  also when some of its revisions fail.
-/

namespace Cochange

/-- What the joint changes `n` of two entities have to do with their changes `k` and `l`. The last
three fields are about the coupling as an exact fraction. -/
structure PairBounds (n k l : Nat) : Prop where
  pos : 1 ≤ n
  le_min : n ≤ min k l
  coupling_pos : 0 < (Weight.ratio n (k + l - n) : Rat)
  coupling_le_one : (Weight.ratio n (k + l - n) : Rat) ≤ 1
  coupling_eq_one : (Weight.ratio n (k + l - n) : Rat) = 1 ↔ k = n ∧ l = n

/-- The bounds of a coupling hold where joint changes are among the changes of both. -/
theorem pairBounds_of_le {n k l : Nat} (hpos : 0 < n) (hk : n ≤ k) (hl : n ≤ l) :
    PairBounds n k l := by
  have htotal : n ≤ k + l - n := by omega
  have hn : (0 : Rat) < n := by exact_mod_cast hpos
  have ht : (0 : Rat) < (k + l - n : Nat) := by exact_mod_cast Nat.lt_of_lt_of_le hpos htotal
  have hratio : (Weight.ratio n (k + l - n) : Rat) = (n : Rat) / (k + l - n : Nat) := rfl
  refine ⟨hpos, le_min hk hl, ?_, ?_, ?_⟩
  · rw [hratio]
    exact div_pos hn ht
  · rw [hratio, div_le_one ht]
    exact_mod_cast htotal
  · rw [hratio, div_eq_one_iff_eq (ne_of_gt ht)]
    constructor
    · intro he
      have he' : n = k + l - n := by exact_mod_cast he
      omega
    · rintro ⟨rfl, rfl⟩
      congr 1
      omega

namespace Context

variable {ω : Type} [Weight ω]

/-- What a context promises about its recorded pairs. -/
structure WellFormed (c : Context ω) : Prop where
  same_cells : ∀ x y, (c.joint.get? x y).isSome = (c.coupling.get? x y).isSome
  joint_symm : ∀ x y, c.joint.get? x y = c.joint.get? y x
  coupling_symm : ∀ x y, c.coupling.get? x y = c.coupling.get? y x
  no_diagonal : ∀ x, c.joint.get? x x = none
  cell : ∀ (x y : Handle) n, c.joint.get? x y = some n →
    ∃ k l, c.changes[x]? = some k ∧ c.changes[y]? = some l ∧ PairBounds n k l ∧
      c.coupling.get? x y = some (Weight.ratio n (k + l - n))

/-- A pair is kept or left out in both orientations. -/
theorem keepsPair_comm {c : Context ω} (hc : c.WellFormed) (kept : Std.ExtTreeMap Handle Nat)
    (minRevisions : Nat) (minCoupling : ω) (x y : Handle) (v : ω) :
    c.keepsPair kept minRevisions minCoupling x y v =
      c.keepsPair kept minRevisions minCoupling y x v := by
  unfold keepsPair
  rw [hc.joint_symm x y, Bool.and_right_comm]

/-- A kept entity has the count that it had. -/
theorem getElem?_kept {changes : Std.ExtTreeMap Handle Nat} {minRevisions : Nat} {x : Handle}
    {k : Nat} (hx : changes[x]? = some k)
    (hkept : (changes.filter fun _ n => minRevisions ≤ n).contains x = true) :
    (changes.filter fun _ n => minRevisions ≤ n)[x]? = some k := by
  rw [Std.ExtTreeMap.contains_eq_isSome_getElem?, Std.ExtTreeMap.getElem?_filter', hx] at hkept
  rw [Std.ExtTreeMap.getElem?_filter', hx]
  rw [Option.filter_some] at hkept ⊢
  split at hkept
  next hle => rw [if_pos hle]
  next => cases hkept

/-- The cells of a filtered context, given the coupling that was recorded. -/
theorem get?_filter_joint (c : Context ω) (minRevisions : Nat) (minCoupling : ω) (x y : Handle) :
    (c.filter minRevisions minCoupling).joint.get? x y =
      (c.coupling.get? x y).bind fun v =>
        if c.keepsPair (c.filter minRevisions minCoupling).changes minRevisions minCoupling x y v
        then some ((c.joint.get? x y).getD 0) else none :=
  SparseMatrix.get?_filterMap ..

/-- A coupling stays behind a filter if the filter keeps its pair. -/
theorem get?_filter_coupling (c : Context ω) (minRevisions : Nat) (minCoupling : ω)
    (x y : Handle) :
    (c.filter minRevisions minCoupling).coupling.get? x y =
      (c.coupling.get? x y).bind fun v =>
        if c.keepsPair (c.filter minRevisions minCoupling).changes minRevisions minCoupling x y v
        then some v else none :=
  SparseMatrix.get?_filterMap ..

/-- Filtering keeps a context well-formed. -/
theorem WellFormed.filter {c : Context ω} (hc : c.WellFormed) (minRevisions : Nat)
    (minCoupling : ω) : (c.filter minRevisions minCoupling).WellFormed where
  same_cells x y := by
    rw [get?_filter_joint, get?_filter_coupling]
    cases c.coupling.get? x y with
    | none => rfl
    | some v =>
      simp only [Option.bind_some]
      split <;> rfl
  joint_symm x y := by
    simp only [get?_filter_joint, keepsPair_comm hc _ _ _ x y, hc.joint_symm x y,
      hc.coupling_symm x y]
  coupling_symm x y := by
    simp only [get?_filter_coupling, keepsPair_comm hc _ _ _ x y, hc.coupling_symm x y]
  no_diagonal x := by
    have hx := hc.same_cells x x
    rw [hc.no_diagonal x] at hx
    have hnone : c.coupling.get? x x = none := by simpa using hx.symm
    rw [get?_filter_joint, hnone]
    rfl
  cell x y n hn := by
    rw [get?_filter_joint] at hn
    obtain ⟨v, hv, hif⟩ := Option.bind_eq_some_iff.mp hn
    split at hif
    next hkeep =>
      -- a recorded coupling belongs to a recorded joint count
      have hsome : (c.joint.get? x y).isSome = true := by
        rw [hc.same_cells, hv]
        rfl
      obtain ⟨m, hm⟩ := Option.isSome_iff_exists.mp hsome
      rw [hm] at hif
      cases hif
      obtain ⟨k, l, hk, hl, hb, hcoupling⟩ := hc.cell x y m hm
      rw [hv] at hcoupling
      have hends := hkeep
      unfold keepsPair at hends
      simp only [Bool.and_eq_true] at hends
      refine ⟨k, l, getElem?_kept hk hends.1.2, getElem?_kept hl hends.2, hb, ?_⟩
      rw [get?_filter_coupling, hv, Option.getD_some, ← hcoupling]
      exact if_pos hkeep
    next => cases hif

/-- Filters, one after the other, keep a context well-formed. -/
theorem WellFormed.foldl_filter (fs : List (Nat × ω)) {c : Context ω} (hc : c.WellFormed) :
    (fs.foldl (fun c f => c.filter f.1 f.2) c).WellFormed := by
  induction fs generalizing c with
  | nil => exact hc
  | cons f fs ih => exact ih (hc.filter f.1 f.2)

end Context

namespace ChangeCounter

variable {ω : Type} [Weight ω]

/-- Both entities of a recorded pair are counted, and at least as often as the pair. -/
theorem Sound.changes_of_joint {s : ChangeCounter × EditedSet} (hs : Sound s) {x y : Handle}
    {n : Nat} (hn : s.1.joint.get? x y = some n) :
    0 < n ∧ ∃ k l, s.1.changes[x]? = some k ∧ s.1.changes[y]? = some l ∧ n ≤ k ∧ n ≤ l := by
  obtain ⟨hpos, k, hk, hnk⟩ := hs.joint_bound x y n hn
  obtain ⟨-, l, hl, hnl⟩ := hs.joint_bound y x n (hs.joint_symm x y ▸ hn)
  exact ⟨hpos, k, l, hk, hl, hnk, hnl⟩

/-- The quotient that is computed for a recorded pair is never cut off. -/
theorem couplingOf_eq {c : ChangeCounter} {x y : Handle} {n k l : Nat} (hk : c.changes[x]? = some k)
    (hl : c.changes[y]? = some l) (hn : n < k + l) :
    (c.couplingOf x y n : ω) = Weight.ratio n (k + l - n) := by
  unfold couplingOf
  rw [hk, hl]
  exact if_neg (by omega)

/-- The context of a sound count is well-formed. -/
theorem context_wellFormed {c : ChangeCounter} (hc : Sound (c, ∅)) :
    (c.context : Context ω).WellFormed where
  same_cells x y := by
    show (c.joint.get? x y).isSome = ((c.joint.filterMap _).get? x y).isSome
    rw [SparseMatrix.get?_filterMap]
    cases c.joint.get? x y <;> rfl
  joint_symm := hc.joint_symm
  coupling_symm x y := by
    show (c.joint.filterMap _).get? x y = (c.joint.filterMap _).get? y x
    rw [SparseMatrix.get?_filterMap, SparseMatrix.get?_filterMap, hc.joint_symm y x]
    cases hn : c.joint.get? x y with
    | none => rfl
    | some n =>
      obtain ⟨hpos, k, l, hk, hl, hnk, hnl⟩ := hc.changes_of_joint hn
      show some (c.couplingOf x y n) = some (c.couplingOf y x n)
      rw [couplingOf_eq hk hl (by omega), couplingOf_eq hl hk (by omega), Nat.add_comm k l]
  no_diagonal := hc.joint_irrefl
  cell x y n hn := by
    obtain ⟨hpos, k, l, hk, hl, hnk, hnl⟩ := hc.changes_of_joint hn
    refine ⟨k, l, hk, hl, pairBounds_of_le hpos hnk hnl, ?_⟩
    show (c.joint.filterMap _).get? x y = _
    rw [SparseMatrix.get?_filterMap, show c.joint.get? x y = some n from hn]
    exact congrArg some (couplingOf_eq hk hl (by omega))

/-- Every context that is made from a history by filtering is well-formed, and while there are
fewer than 2^31 revisions the quotient of every recorded pair is computed from the counts of both
entities, without leaving the range of 32-bit words at either end. -/
theorem finish_filters_wellFormed (languages : Languages) (maxChangeSet : Nat)
    (rs : List Revision) (hrs : rs.length < 2 ^ 31) (minRevisions : Nat) (minCoupling : ω)
    (fs : List (Nat × ω)) :
    (fs.foldl (fun c f => c.filter f.1 f.2)
      (((start languages maxChangeSet).run rs).finish minRevisions minCoupling)).WellFormed ∧
    ∀ (x y : Handle) n, ((start languages maxChangeSet).run rs).joint.get? x y = some n →
      ∃ k l, ((start languages maxChangeSet).run rs).changes[x]? = some k ∧
        ((start languages maxChangeSet).run rs).changes[y]? = some l ∧
        k + l < 2 ^ 32 ∧ n ≤ k + l ∧ k + l - n ≠ 0 := by
  have hc : Sound ((start languages maxChangeSet).run rs, ∅) :=
    (sound_start languages maxChangeSet).run rs
  refine ⟨(context_wellFormed hc).filter minRevisions minCoupling |>.foldl_filter fs, ?_⟩
  intro x y n hn
  obtain ⟨hpos, k, l, hk, hl, hnk, hnl⟩ := hc.changes_of_joint hn
  -- no count exceeds the number of revisions, so that two of them fit into a word
  have hrun := run_revisions_le rs (start languages maxChangeSet)
  have hk' := (hc.changes_bound x k hk).2
  have hl' := (hc.changes_bound y l hl).2
  simp only [show (start languages maxChangeSet).revisions = 0 from rfl] at hrun hk' hl'
  exact ⟨k, l, hk, hl, by omega, by omega, by omega⟩

/-- The second revision removes a function and then fails, since it puts a file into a file. -/
def failingHistory : List Revision :=
  [.ofEdits [.editEntity sampleF, .editEntity sampleG],
    .ofEdits [.removeNode sampleF, .addNode sampleFile (.file "a.rs" [.file "b.rs" []])],
    .ofEdits [.editEntity sampleG, .editEntity sampleF]]

/-- The second revision fails half-way; what it removed and counted before that is no harm. -/
theorem finish_filters_wellFormed_failing :
    failingHistory.length < 2 ^ 31 ∧
    ((((start {} 3).run failingHistory).finish 1 (0 : Rat)).filter 1 (1 / 2)).WellFormed ∧
    ∃ k l, ((start {} 3).run failingHistory).changes[0]? = some k ∧
      ((start {} 3).run failingHistory).changes[1]? = some l ∧
      k + l < 2 ^ 32 ∧ 1 ≤ k + l ∧ k + l - 1 ≠ 0 := by
  obtain ⟨hwf, hcell⟩ := finish_filters_wellFormed {} 3 failingHistory (by decide) 1 (0 : Rat)
    [(1, 1 / 2)]
  exact ⟨by decide, hwf, hcell 0 1 1 (by decide +kernel)⟩

end ChangeCounter

end Cochange
