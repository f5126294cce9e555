import Cochange.Proofs.Tree.Nesting
import Cochange.Proofs.Tree.Operations

/-!
# Gaps in a tree

A node may be present while a node around it is absent. Such a gap hides what is below it: a node
is below another one (`Below`) exactly if all nodes on the way from the one up to the other are
present (`below_iff_upTo`). So a removal does not reach the nodes behind a gap. Main result:
`contains_remove_iff_gap`.
-/

namespace Cochange

namespace QualifiedId

variable {x p id : QualifiedId}

/-- The ids from `x` up to the last one before `id`; all ids around `x` if `id` is not among
them. -/
def upTo (x id : QualifiedId) : List QualifiedId :=
  (x :: x.ancestors).takeWhile (· ≠ id)

theorem upTo_self (x : QualifiedId) : x.upTo x = [] :=
  List.takeWhile_cons_of_neg (by simp)

/-- Going up to an id passes the parent, unless the id is reached. -/
theorem upTo_of_parent? (h : x.parent? = some p) (hne : x ≠ id) : x.upTo id = x :: p.upTo id := by
  unfold upTo
  rw [ancestors_of_parent? h, List.takeWhile_cons_of_pos (by simpa using hne)]

end QualifiedId

namespace SourceTree

open QualifiedId (upTo)

variable {t : SourceTree} {id x p : QualifiedId}

/-- Below a node are those nested in it from which present nodes lead up to it. -/
theorem below_iff_upTo : t.Below id x ↔
    t.contains id = true ∧ x.IsNestedIn id ∧ ∀ y ∈ x.upTo id, t.contains y = true := by
  induction x using QualifiedId.ancestors.induct with
  | case1 x hnone =>
    rw [QualifiedId.isNestedIn_iff_of_parent?_eq_none hnone]
    constructor
    · intro h
      cases h with
      | self hid => exact ⟨hid, rfl, by simp [QualifiedId.upTo_self]⟩
      | step _ _ hpar =>
        rw [hnone] at hpar
        cases hpar
    · rintro ⟨hid, he, -⟩
      rw [← he]
      exact .self hid
  | case2 x p hp _ ih =>
    rw [QualifiedId.isNestedIn_iff_of_parent? hp]
    by_cases hx : x = id
    · rw [hx, QualifiedId.upTo_self]
      exact ⟨fun h => ⟨h.contains, Or.inl rfl, by simp⟩, fun h => .self h.1⟩
    · rw [QualifiedId.upTo_of_parent? hp hx, List.forall_mem_cons, or_iff_right (Ne.symm hx)]
      constructor
      · intro h
        have hparent := ((below_iff_parent hp h.contains).mp h).resolve_left hx
        obtain ⟨hid, hnested, hway⟩ := ih.mp hparent
        exact ⟨hid, hnested, h.contains, hway⟩
      · rintro ⟨hid, hnested, hcx, hway⟩
        exact (below_iff_parent hp hcx).mpr (Or.inr (ih.mpr ⟨hid, hnested, hway⟩))

/-- What the links lead to is nested by name. -/
theorem Below.isNestedIn (h : t.Below id x) : x.IsNestedIn id :=
  (below_iff_upTo.mp h).2.1

/-- After the removal of a present node those nodes are left that were there and are not nested
in it, or are nested in it behind a gap: an absent node on the way up. -/
theorem contains_remove_iff_gap (ops : List Operation) (id : QualifiedId)
    (hid : (built ops).contains id = true) (x : QualifiedId) :
    ((built ops).remove id).contains x = true ↔
      (built ops).contains x = true ∧
        (x.IsNestedIn id → ∃ y ∈ x.upTo id, (built ops).contains y = false) := by
  rw [contains_remove (linked_built ops), below_iff_upTo]
  refine and_congr_right fun _ => ?_
  simp only [hid, true_and, not_and, not_forall, Bool.not_eq_true, exists_prop]

/-- A type of a source file. -/
def sampleType : QualifiedId :=
  { path := ⟨"a.rs", isToken_samplePath⟩, types := [⟨"A", by decide⟩], member := none }

/-- A method of that type. -/
def sampleMethod : QualifiedId :=
  { path := ⟨"a.rs", isToken_samplePath⟩, types := [⟨"A", by decide⟩],
    member := some ⟨"f()", isMember_sampleSignature⟩ }

/-- The source file, and the method without its type. -/
def gapOperations : List Operation :=
  [.add (.ofPath sampleType.path) (.file "a.rs" []), .add sampleMethod (.ofSignature "f()")]

theorem sampleMethod_ancestors :
    sampleMethod.ancestors = [sampleType, .ofPath sampleType.path] := by
  rw [QualifiedId.ancestors_of_parent? (show sampleMethod.parent? = some sampleType by decide),
    QualifiedId.ancestors_of_parent?
      (show sampleType.parent? = some (.ofPath sampleType.path) by decide),
    QualifiedId.ancestors_of_parent?_eq_none (by decide)]

/-- The file goes, the method stays: its type was never there. -/
theorem contains_remove_iff_gap_method :
    (built gapOperations).contains (.ofPath sampleType.path) = true ∧
      ((built gapOperations).remove (.ofPath sampleType.path)).contains sampleMethod = true := by
  have hfile : (built gapOperations).contains (.ofPath sampleType.path) = true := by
    decide +kernel
  refine ⟨hfile, (contains_remove_iff_gap gapOperations _ hfile sampleMethod).mpr ⟨?_, ?_⟩⟩
  · decide +kernel
  · intro _
    refine ⟨sampleType, ?_, by decide +kernel⟩
    unfold upTo
    rw [sampleMethod_ancestors]
    decide

/-- Removing a present node does not remove everything that is nested in it. -/
theorem remove_leaves_nested : ¬∀ (ops : List Operation) (id : QualifiedId),
    (built ops).contains id = true → ∀ x : QualifiedId, x.IsNestedIn id →
      ((built ops).remove id).contains x = false := by
  intro h
  have hgone := h gapOperations (.ofPath sampleType.path) (by decide +kernel) sampleMethod
    (Or.inr (by rw [sampleMethod_ancestors]; simp))
  have hleft : ((built gapOperations).remove (.ofPath sampleType.path)).contains sampleMethod =
      true := by decide +kernel
  rw [hleft] at hgone
  cases hgone

end SourceTree

end Cochange
