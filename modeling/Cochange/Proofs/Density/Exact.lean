import Cochange.Proofs.Heap.Spec
import Mathlib.Algebra.Order.Field.Rat

/-!
# Exact weights

With rational numbers for weights, the operations on weights are those of rational numbers, and
the order by which weights are sorted is theirs. So a heap takes any change of a key.
-/

namespace Cochange

namespace Weight

theorem rat_order (x y : Rat) : Weight.order x y = compareOfLessAndEq x y := rfl

/-- In exact arithmetic the order of weights is that of numbers. -/
theorem rat_order_eq_lt {x y : Rat} : Weight.order x y = .lt ↔ x < y := by
  rw [rat_order, compareOfLessAndEq_eq_lt]

theorem rat_order_eq_eq {x y : Rat} : Weight.order x y = .eq ↔ x = y := by
  rw [rat_order, compareOfLessAndEq_eq_eq le_refl not_le]

theorem rat_order_isLE {x y : Rat} : (Weight.order x y).isLE = true ↔ x ≤ y := by
  rw [rat_order, compareOfLessAndEq]
  rcases lt_trichotomy x y with h | h | h
  · rw [if_pos h]
    exact ⟨fun _ => h.le, fun _ => rfl⟩
  · rw [if_neg h.not_lt, if_pos h]
    exact ⟨fun _ => h.le, fun _ => rfl⟩
  · rw [if_neg h.not_gt, if_neg h.ne']
    exact ⟨fun hc => absurd hc (by decide), fun hle => absurd h hle.not_gt⟩

instance transCmp_rat : Std.TransCmp (Weight.order : Rat → Rat → Ordering) where
  eq_swap {x y} := by
    rw [rat_order, rat_order, compareOfLessAndEq, compareOfLessAndEq]
    rcases lt_trichotomy x y with h | h | h
    · rw [if_pos h, if_neg h.not_gt, if_neg h.ne']
      rfl
    · rw [if_neg h.not_lt, if_pos h, if_neg h.not_gt, if_pos h.symm]
      rfl
    · rw [if_neg h.not_gt, if_neg h.ne', if_pos h]
      rfl
  isLE_trans hxy hyz := rat_order_isLE.mpr ((rat_order_isLE.mp hxy).trans (rat_order_isLE.mp hyz))

theorem rat_lt {x y : Rat} : Weight.lt x y = true ↔ x < y :=
  decide_eq_true_iff

/-- In exact arithmetic the comparison and the order always agree. -/
theorem rat_comparable (x y : Rat) : MinHeap.Comparable x y :=
  rat_lt.trans rat_order_eq_lt.symm

/-- In exact arithmetic it does not matter where a sum begins. -/
theorem rat_sum (ws : List Rat) : Weight.sum ws = ws.sum := by
  show ws.foldl (· + ·) 0 = ws.sum
  rw [List.sum_eq_foldl]

end Weight

end Cochange
