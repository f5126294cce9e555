import Cochange.ChangeCounter
import Mathlib.Tactic.Tauto

/-!
# Pairs in a symmetric matrix

The joint changes are kept in both orientations. Whatever the order in which handles are gone
through, counting the pairs of a list adds one to each cell of two different members
(`get?_countPairs`).
-/

namespace Cochange

namespace ChangeCounter

/-- One more for a recorded cell, and a first one for a cell that was not. -/
def raise (n : Option Nat) : Option Nat :=
  some (n.getD 0 + 1)

/-- Counting a pair raises its cell in both orientations and no other. -/
theorem get?_countPair (m : SparseMatrix Nat) {x y : Handle} (hxy : x ≠ y) (a b : Handle) :
    (countPair m (x, y)).get? a b =
      if (a = x ∧ b = y) ∨ (a = y ∧ b = x) then raise (m.get? a b) else m.get? a b := by
  show ((m.modify x y _).modify y x _).get? a b = _
  rw [SparseMatrix.get?_modify, SparseMatrix.get?_modify, SparseMatrix.get?_modify,
    if_neg (show ¬(y = x ∧ x = y) from fun h => hxy h.2)]
  by_cases h₁ : a = y ∧ b = x
  · rw [if_pos h₁, if_pos (Or.inr h₁), h₁.1, h₁.2]
    rfl
  · rw [if_neg h₁]
    by_cases h₂ : a = x ∧ b = y
    · rw [if_pos h₂, if_pos (Or.inl h₂), h₂.1, h₂.2]
      rfl
    · rw [if_neg h₂, if_neg (by simp [h₁, h₂])]

/-- The pairs of one entity with those that come after it. -/
theorem get?_countPairs_row (x : Handle) :
    ∀ (ys : List Handle) (m : SparseMatrix Nat), x ∉ ys → ys.Nodup → ∀ a b,
      ((ys.map fun y => (x, y)).foldl countPair m).get? a b =
        if (a = x ∧ b ∈ ys) ∨ (a ∈ ys ∧ b = x) then raise (m.get? a b) else m.get? a b
  | [], m, _, _, a, b => by simp
  | y :: ys, m, hx, hys, a, b => by
    obtain ⟨hxy, hx'⟩ : x ≠ y ∧ x ∉ ys := by simpa using hx
    obtain ⟨hy, hys'⟩ := List.nodup_cons.mp hys
    rw [List.map_cons, List.foldl_cons, get?_countPairs_row x ys _ hx' hys', get?_countPair m hxy]
    -- no cell belongs both to `y` and to one of the rest
    by_cases h₁ : (a = x ∧ b ∈ ys) ∨ (a ∈ ys ∧ b = x)
    · have h₂ : ¬((a = x ∧ b = y) ∨ (a = y ∧ b = x)) := by
        rintro (⟨ha, hb⟩ | ⟨ha, hb⟩) <;> rcases h₁ with ⟨hc, hd⟩ | ⟨hc, hd⟩
        · exact hy (hb ▸ hd)
        · exact hxy (hd.symm.trans hb)
        · exact hxy (hc.symm.trans ha)
        · exact hy (ha ▸ hc)
      rw [if_pos h₁, if_neg h₂, if_pos]
      simp only [List.mem_cons]
      tauto
    · rw [if_neg h₁]
      by_cases h₂ : (a = x ∧ b = y) ∨ (a = y ∧ b = x)
      · rw [if_pos h₂, if_pos]
        simp only [List.mem_cons]
        tauto
      · rw [if_neg h₂, if_neg]
        simp only [List.mem_cons]
        tauto

/-- Counting all pairs of a list without repetitions raises the cells of two different members,
each once. -/
theorem get?_countPairs :
    ∀ (xs : List Handle) (m : SparseMatrix Nat), xs.Nodup → ∀ a b,
      ((pairsOf xs).foldl countPair m).get? a b =
        if a ∈ xs ∧ b ∈ xs ∧ a ≠ b then raise (m.get? a b) else m.get? a b
  | [], m, _, a, b => by simp [pairsOf]
  | x :: xs, m, hxs, a, b => by
    obtain ⟨hx, hxs'⟩ := List.nodup_cons.mp hxs
    rw [pairsOf, List.foldl_append, get?_countPairs xs _ hxs', get?_countPairs_row x xs m hx hxs']
    by_cases ha : a = x <;> by_cases hb : b = x
    · rw [ha, hb]
      simp [hx]
    · rw [ha]
      simp [hx, hb, Ne.symm hb]
    · rw [hb]
      simp [hx, ha]
    · simp [ha, hb]

end ChangeCounter

end Cochange
