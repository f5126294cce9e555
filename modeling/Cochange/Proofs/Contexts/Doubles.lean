import Cochange.Proofs.Contexts.Answers

/-!
# Comparing doubles

Doubles are compared by sign, exponent and mantissa. Every double but NaN has a level (`level`),
and of two such doubles the comparison tells which level comes first (`compare_eq_levelOrder`). So
`≤` is transitive, and total except for NaN, which is not even `≤` itself, and `<` is its strict part
on numbers (`le_iff`, `lt_iff`). The larger of two doubles is then the bound that both of them set
together (`max_le_iff`).

This order is not the one by which weights are sorted: there -0.0 comes before 0.0, and NaN has a
place.
-/

namespace Cochange.Doubles

open Float.Model (UnpackedFloat)

/-- Where a double stands among the others: by kind and sign first, then by exponent and by
mantissa, which count downwards below zero. -/
def level : UnpackedFloat → Int × Int × Int
  | .infinity .negative => (-2, 0, 0)
  | .finite .negative mantissa exponent _ => (-1, -exponent, -mantissa)
  | .zero _ => (0, 0, 0)
  | .finite .positive mantissa exponent _ => (1, exponent, mantissa)
  | .infinity .positive => (2, 0, 0)
  | .notANumber => (3, 0, 0)

/-- The order of levels. -/
def levelOrder (p q : Int × Int × Int) : Ordering :=
  (compare p.1 q.1).then ((compare p.2.1 q.2.1).then (compare p.2.2 q.2.2))

instance transCmp_levelOrder : Std.TransCmp levelOrder := by
  have hkind : Std.TransCmp fun p q : Int × Int × Int => compare p.1 q.1 :=
    transCmp_on compare Prod.fst
  have hexponent : Std.TransCmp fun p q : Int × Int × Int => compare p.2.1 q.2.1 :=
    transCmp_on compare fun p : Int × Int × Int => p.2.1
  have hmantissa : Std.TransCmp fun p q : Int × Int × Int => compare p.2.2 q.2.2 :=
    transCmp_on compare fun p : Int × Int × Int => p.2.2
  exact inferInstanceAs (Std.TransCmp (compareLex _ (compareLex _ _)))

theorem compare_neg (a b : Int) : compare (-a) (-b) = (compare a b).swap := by
  rw [Int.compare_swap, Int.compare_eq_ite_lt, Int.compare_eq_ite_lt]
  simp only [Int.neg_lt_neg_iff]

theorem compare_natCast (m n : Nat) : compare (m : Int) (n : Int) = compare m n := by
  rw [Int.compare_eq_ite_lt, Nat.compare_eq_ite_lt]
  simp only [Int.ofNat_lt]

/-- Two doubles that are numbers are compared by their levels. -/
theorem compare_eq_levelOrder {a b : UnpackedFloat} (ha : a ≠ .notANumber)
    (hb : b ≠ .notANumber) : a.compare b = some (levelOrder (level a) (level b)) := by
  cases a with
  | notANumber => exact absurd rfl ha
  | infinity s =>
    cases b with
    | notANumber => exact absurd rfl hb
    | infinity s' => cases s <;> cases s' <;> rfl
    | zero s' => cases s <;> rfl
    | finite s' m' e' h' => cases s <;> cases s' <;> rfl
  | zero s =>
    cases b with
    | notANumber => exact absurd rfl hb
    | infinity s' => cases s' <;> rfl
    | zero s' => rfl
    | finite s' m' e' h' => cases s' <;> rfl
  | finite s m e h =>
    cases b with
    | notANumber => exact absurd rfl hb
    | infinity s' => cases s <;> cases s' <;> rfl
    | zero s' => cases s <;> rfl
    | finite s' m' e' h' =>
      cases s <;> cases s'
      -- two negative numbers stand the other way round
      · show some ((compare e e').then (compare m m')).swap =
          some ((compare (-e) (-e')).then (compare (-(m : Int)) (-(m' : Int))))
        rw [compare_neg, compare_neg, compare_natCast, Ordering.swap_then]
      · rfl
      · rfl
      · show some ((compare e e').then (compare m m')) =
          some ((compare e e').then (compare (m : Int) (m' : Int)))
        rw [compare_natCast]

/-! ## Less and at most -/

/-- NaN is what cannot be unpacked into a number. -/
theorem isNaN_eq_false {x : Float} : x.isNaN = false ↔ x.toModel.unpack ≠ .notANumber := by
  show x.toModel.unpack.isNaN = false ↔ _
  cases x.toModel.unpack with
  | notANumber => exact iff_of_false (Bool.noConfusion ·) fun h => h rfl
  | infinity _ => exact iff_of_true rfl nofun
  | zero _ => exact iff_of_true rfl nofun
  | finite _ _ _ _ => exact iff_of_true rfl nofun

/-- NaN is not compared with anything. -/
theorem compare_eq_none {a b : UnpackedFloat} (h : a = .notANumber ∨ b = .notANumber) :
    a.compare b = none := by
  rcases h with rfl | rfl
  · rfl
  · cases a <;> rfl

/-- What the comparison of two doubles answers if both are numbers, and only then. -/
theorem compare_iff {x y : Float} {P : Ordering → Prop} :
    (∃ o, x.toModel.unpack.compare y.toModel.unpack = some o ∧ P o) ↔
      x.isNaN = false ∧ y.isNaN = false ∧
        P (levelOrder (level x.toModel.unpack) (level y.toModel.unpack)) := by
  rw [isNaN_eq_false, isNaN_eq_false]
  by_cases h : x.toModel.unpack = .notANumber ∨ y.toModel.unpack = .notANumber
  · rw [compare_eq_none h]
    refine iff_of_false (fun ⟨o, ho, _⟩ => Option.some_ne_none o ho.symm) fun hnumbers => ?_
    exact h.elim hnumbers.1 hnumbers.2.1
  · rw [not_or] at h
    rw [compare_eq_levelOrder h.1 h.2]
    constructor
    · intro ⟨o, ho, hP⟩
      exact ⟨h.1, h.2, Option.some.inj ho ▸ hP⟩
    · exact fun hP => ⟨_, rfl, hP.2.2⟩

/-- One double is at most another if both are numbers and the level of the first does not come
behind that of the second. -/
theorem le_iff {x y : Float} : x ≤ y ↔ x.isNaN = false ∧ y.isNaN = false ∧
    (levelOrder (level x.toModel.unpack) (level y.toModel.unpack)).isLE = true := by
  have hcompare : x ≤ y ↔
      (x.toModel.unpack.compare y.toModel.unpack).any (·.isLE) = true := decide_eq_true_iff
  rw [hcompare, Option.any_eq_true]
  exact compare_iff

/-- One double is less than another if both are numbers and the level of the first comes before
that of the second. -/
theorem lt_iff {x y : Float} : x < y ↔ x.isNaN = false ∧ y.isNaN = false ∧
    levelOrder (level x.toModel.unpack) (level y.toModel.unpack) = .lt := by
  have hcompare : x < y ↔ (x.toModel.unpack.compare y.toModel.unpack == some .lt) = true :=
    decide_eq_true_iff
  rw [hcompare, beq_iff_eq, ← compare_iff (P := (· = .lt))]
  exact ⟨fun h => ⟨.lt, h, rfl⟩, fun ⟨o, ho, hlt⟩ => hlt ▸ ho⟩

/-- At most is transitive, NaN included. -/
theorem le_trans {x y z : Float} (hxy : x ≤ y) (hyz : y ≤ z) : x ≤ z := by
  rw [le_iff] at hxy hyz ⊢
  exact ⟨hxy.1, hyz.2.1, Std.TransCmp.isLE_trans hxy.2.2 hyz.2.2⟩

theorem lt_of_lt_of_le {x y z : Float} (hxy : x < y) (hyz : y ≤ z) : x < z := by
  rw [lt_iff] at hxy ⊢
  rw [le_iff] at hyz
  exact ⟨hxy.1, hyz.2.1, Std.TransCmp.lt_of_lt_of_isLE hxy.2.2 hyz.2.2⟩

/-- Of two numbers one is at most the other. -/
theorem le_total {x y : Float} (hx : x.isNaN = false) (hy : y.isNaN = false) : x ≤ y ∨ y ≤ x := by
  have hswap : levelOrder (level y.toModel.unpack) (level x.toModel.unpack) =
      (levelOrder (level x.toModel.unpack) (level y.toModel.unpack)).swap :=
    Std.OrientedCmp.eq_swap
  simp only [le_iff, hx, hy, true_and]
  rw [hswap]
  cases levelOrder (level x.toModel.unpack) (level y.toModel.unpack) <;> simp

/-- What is at least the larger of two numbers is at least both. -/
theorem max_le_iff {x y z : Float} (hx : x.isNaN = false) (hy : y.isNaN = false) :
    max x y ≤ z ↔ x ≤ z ∧ y ≤ z := by
  show (if x ≤ y then y else x) ≤ z ↔ _
  split
  next hxy => exact ⟨fun h => ⟨le_trans hxy h, h⟩, fun h => h.2⟩
  next hxy =>
    have hyx : y ≤ x := (le_total hx hy).resolve_left hxy
    exact ⟨fun h => ⟨h, le_trans hyx h⟩, fun h => h.1⟩

end Cochange.Doubles
