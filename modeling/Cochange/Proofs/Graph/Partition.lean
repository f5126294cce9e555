import Cochange.Graph.Components
import Mathlib.Logic.Relation
import Mathlib.Tactic.Tauto

/-!
# Classes of numbers

Two numbers are in the same class if they have the same representative. Merging the classes of
two numbers joins these two classes and no others (`same_union`), whichever of them gives the
representative. So the classes that are left when all pairs of a list were merged are those of
the least equivalence that relates the pairs (`same_unionAll_discrete`).
-/

namespace Cochange

namespace Partition

/-- Whether two numbers are in the same class. -/
def Same (p : Partition) (x y : Nat) : Prop :=
  p.rootOf x = p.rootOf y

/-- The representatives of the numbers below `n` are below `n`, and no other number has one. -/
structure Bounded (p : Partition) (n : Nat) : Prop where
  size : p.root.size = n
  lt : ∀ x, x < n → p.rootOf x < n

variable {p : Partition} {n x y u v : Nat}

/-- Beyond the bound everything is its own root. -/
theorem Bounded.rootOf_of_le (hb : p.Bounded n) (hx : n ≤ x) : p.rootOf x = x := by
  rw [rootOf, Array.getElem?_eq_none (by rw [hb.size]; exact hx)]
  rfl

/-- Where nothing is merged everything is its own root. -/
theorem rootOf_discrete (n x : Nat) : (discrete n).rootOf x = x := by
  show ((Array.range n)[x]?).getD x = x
  rw [Array.getElem?_range]
  split <;> rfl

theorem bounded_discrete (n : Nat) : (discrete n).Bounded n :=
  ⟨Array.size_range, fun x hx => by rwa [rootOf_discrete]⟩

/-- The members of the absorbed class get the root of the other one. -/
theorem rootOf_absorb (p : Partition) (winner loser x : Nat) :
    (p.absorb winner loser).rootOf x =
      if x < p.root.size ∧ p.rootOf x = loser then winner else p.rootOf x := by
  show ((p.root.map fun r => if r = loser then winner else r)[x]?).getD x = _
  rw [Array.getElem?_map, rootOf]
  by_cases hx : x < p.root.size
  · rw [Array.getElem?_eq_getElem hx]
    simp [hx]
  · rw [Array.getElem?_eq_none (by omega)]
    simp [hx]

/-- Of two classes that are merged, one is absorbed by the other. -/
theorem rootOf_union (p : Partition) (x y : Nat) :
    ∃ winner loser,
      ((winner = p.rootOf x ∧ loser = p.rootOf y) ∨ (winner = p.rootOf y ∧ loser = p.rootOf x)) ∧
      (p.union x y).root.size = p.root.size ∧
      ∀ u, (p.union x y).rootOf u = (p.absorb winner loser).rootOf u := by
  have hsize : ∀ w l, (p.absorb w l).root.size = p.root.size := fun w l => Array.size_map
  unfold union
  dsimp only
  split
  next heq =>
    refine ⟨p.rootOf x, p.rootOf y, Or.inl ⟨rfl, rfl⟩, rfl, fun u => ?_⟩
    rw [rootOf_absorb, heq]
    split
    next hu => exact hu.2
    next => rfl
  next =>
    split
    next => exact ⟨p.rootOf y, p.rootOf x, Or.inr ⟨rfl, rfl⟩, hsize _ _, fun _ => rfl⟩
    next => exact ⟨p.rootOf x, p.rootOf y, Or.inl ⟨rfl, rfl⟩, hsize _ _, fun _ => rfl⟩
    next => exact ⟨p.rootOf x, p.rootOf y, Or.inl ⟨rfl, rfl⟩, hsize _ _, fun _ => rfl⟩

/-- Merging within the bound stays within it. -/
theorem Bounded.union (hb : p.Bounded n) (hx : x < n) (hy : y < n) : (p.union x y).Bounded n := by
  obtain ⟨w, l, hwl, hsize, hroot⟩ := rootOf_union p x y
  have hw : w < n := by
    rcases hwl with ⟨hw, -⟩ | ⟨hw, -⟩
    · exact hw ▸ hb.lt x hx
    · exact hw ▸ hb.lt y hy
  refine ⟨hsize.trans hb.size, fun u hu => ?_⟩
  rw [hroot, rootOf_absorb]
  split
  next => exact hw
  next => exact hb.lt u hu

/-- Two values agree after `loser` is replaced by `winner` if they did or are these two. -/
theorem absorbed_eq_iff (a b winner loser : Nat) :
    (if a = loser then winner else a) = (if b = loser then winner else b) ↔
      a = b ∨ (a = winner ∧ b = loser) ∨ (a = loser ∧ b = winner) := by
  by_cases ha : a = loser
  · by_cases hb : b = loser
    · rw [if_pos ha, if_pos hb, ha, hb]
      tauto
    · rw [if_pos ha, if_neg hb, ha]
      tauto
  · by_cases hb : b = loser
    · rw [if_neg ha, if_pos hb, hb]
      tauto
    · rw [if_neg ha, if_neg hb]
      tauto

/-- Merging two classes joins them and leaves all others as they are. -/
theorem same_union (hb : p.Bounded n) (hx : x < n) (hy : y < n) :
    (p.union x y).Same u v ↔
      p.Same u v ∨ (p.Same u x ∧ p.Same v y) ∨ (p.Same u y ∧ p.Same v x) := by
  obtain ⟨w, l, hwl, -, hroot⟩ := rootOf_union p x y
  have hxlt := hb.lt x hx
  have hylt := hb.lt y hy
  -- a number that is in no class is its own representative, and neither `x` nor `y` has it
  have hother : ∀ z, p.rootOf z = p.rootOf x ∨ p.rootOf z = p.rootOf y → z < n := by
    intro z hz
    refine Nat.lt_of_not_le fun hle => ?_
    have := hb.rootOf_of_le hle
    omega
  have habsorb : ∀ z, (p.union x y).rootOf z = if p.rootOf z = l then w else p.rootOf z := by
    intro z
    rw [hroot, rootOf_absorb, hb.size]
    by_cases hz : p.rootOf z = l
    · have hzn : z < n := by
        rcases hwl with ⟨-, hl⟩ | ⟨-, hl⟩
        · exact hother z (Or.inr (hz.trans hl))
        · exact hother z (Or.inl (hz.trans hl))
      rw [if_pos ⟨hzn, hz⟩, if_pos hz]
    · rw [if_neg (fun hc => hz hc.2), if_neg hz]
  unfold Same
  rw [habsorb, habsorb, absorbed_eq_iff]
  rcases hwl with ⟨rfl, rfl⟩ | ⟨rfl, rfl⟩
  · rfl
  · exact or_congr_right or_comm

/-- Merging one pair first gives the same classes in the end as having it in the list. -/
theorem eqvGen_union (hb : p.Bounded n) (hx : x < n) (hy : y < n) (pairs : List (Nat × Nat)) :
    Relation.EqvGen (fun a b => (p.union x y).Same a b ∨ (a, b) ∈ pairs) u v ↔
      Relation.EqvGen (fun a b => p.Same a b ∨ (a, b) ∈ (x, y) :: pairs) u v := by
  constructor
  -- what the first merge joins is joined by way of the pair
  · refine Relation.EqvGen.eqvGen_le (fun a b hab => ?_) u v
    have hxy : Relation.EqvGen (fun a b => p.Same a b ∨ (a, b) ∈ (x, y) :: pairs) x y :=
      .rel _ _ (Or.inr List.mem_cons_self)
    rcases hab with hab | hab
    · rcases (same_union hb hx hy).mp hab with h | ⟨ha, hb⟩ | ⟨ha, hb⟩
      · exact .rel _ _ (Or.inl h)
      · exact .trans _ _ _ (.rel _ _ (Or.inl ha))
          (.trans _ _ _ hxy (.symm _ _ (.rel _ _ (Or.inl hb))))
      · exact .trans _ _ _ (.rel _ _ (Or.inl ha))
          (.trans _ _ _ (.symm _ _ hxy) (.symm _ _ (.rel _ _ (Or.inl hb))))
    · exact .rel _ _ (Or.inr (List.mem_cons_of_mem _ hab))
  · refine Relation.EqvGen.mono (fun a b hab => ?_) u v
    rcases hab with hab | hab
    · exact Or.inl ((same_union hb hx hy).mpr (Or.inl hab))
    · rcases List.mem_cons.mp hab with heq | hab
      · obtain ⟨rfl, rfl⟩ := Prod.mk.inj heq
        exact Or.inl ((same_union hb hx hy).mpr (Or.inr (Or.inl ⟨rfl, rfl⟩)))
      · exact Or.inr hab

/-- After all pairs were merged two numbers are in the same class if the pairs and the classes
before relate them. -/
theorem same_unionAll {pairs : List (Nat × Nat)} : ∀ {p : Partition}, p.Bounded n →
    (∀ xy ∈ pairs, xy.1 < n ∧ xy.2 < n) →
    ((p.unionAll pairs).Same u v ↔
      Relation.EqvGen (fun a b => p.Same a b ∨ (a, b) ∈ pairs) u v) := by
  induction pairs with
  | nil =>
    intro p _ _
    refine ⟨fun h => .rel _ _ (Or.inl h), fun h => ?_⟩
    induction h with
    | rel a b hab => exact hab.resolve_right List.not_mem_nil
    | refl a => rfl
    | symm a b _ ih => exact ih.symm
    | trans a b c _ _ hab hbc => exact hab.trans hbc
  | cons xy pairs ih =>
    intro p hb hlt
    obtain ⟨hx, hy⟩ := hlt xy List.mem_cons_self
    show ((p.union xy.1 xy.2).unionAll pairs).Same u v ↔ _
    rw [ih (hb.union hx hy) fun xy' h => hlt xy' (List.mem_cons_of_mem xy h),
      eqvGen_union hb hx hy]

/-- The classes of numbers that were told apart before are those of the pairs alone. -/
theorem same_unionAll_discrete {pairs : List (Nat × Nat)}
    (hlt : ∀ xy ∈ pairs, xy.1 < n ∧ xy.2 < n) :
    ((discrete n).unionAll pairs).Same u v ↔
      Relation.EqvGen (fun a b => (a, b) ∈ pairs) u v := by
  rw [same_unionAll (bounded_discrete n) hlt]
  constructor
  · refine Relation.EqvGen.eqvGen_le (fun a b hab => ?_) u v
    rcases hab with hab | hab
    · unfold Same at hab
      rw [rootOf_discrete, rootOf_discrete] at hab
      rw [hab]
      exact .refl b
    · exact .rel _ _ hab
  · exact Relation.EqvGen.mono (fun a b hab => Or.inr hab) u v

end Partition

end Cochange
