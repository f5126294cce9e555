import Cochange.Proofs.Density.Exact
import Cochange.Proofs.Density.Links

/-!
# What the peeling keeps

A stage of the peeling `Tracks` a set of nodes: the heap holds the places of just these, the key
of each is its degree in the set, and the sum is the sum of these degrees. Taking a node away
keeps this for the set without it:

* `lower_spec`, `foldl_lower`: what lowering the degrees of the neighbours does.
* `Tracks.next`: the member taken away is the weakest one, and the stage after it tracks what
  remains.
* `exists_stage`: so every stage tracks what remains of the members.

The weights are exact, the couplings any numbers, and several links may join the same nodes.
-/

namespace Cochange

namespace Peel

/-! ## Lowering degrees -/

/-- After some neighbours of a node taken away were lowered, the same items are left, their keys
and the sum without the couplings of these neighbours. -/
structure Lowered (p : Peel Rat) (ns : List (Nat × Rat)) (p' : Peel Rat) : Prop where
  valid : p'.heap.Valid
  contains : ∀ x, p'.heap.contains x = p.heap.contains x
  key : ∀ x a, p.heap.contains x = true → p.heap.key? x = some a →
    p'.heap.key? x = some (a - share ns fun y => decide (y = x))
  degreeSum : p'.degreeSum = p.degreeSum - 2 * share ns fun y => p.heap.contains y

variable {p : Peel Rat}

/-- Lowering a degree keeps the heap valid, and changes this degree and the sum only. -/
theorem lower_spec (hv : p.heap.Valid) (n : Nat × Rat) : Lowered p [n] (p.lower n) := by
  unfold lower
  by_cases hc : p.heap.contains n.1 = true
  · obtain ⟨b, hb⟩ := hv.indexed.key?_isSome hc
    rw [if_pos hc, hb]
    have hu := MinHeap.update_spec hv hc hb (Weight.rat_comparable (b - n.2) b)
    refine ⟨hu.2, hu.1.contains, fun x a _ ha => ?_, ?_⟩
    · show (p.heap.update n.1 (b - n.2)).key? x = _
      rw [MinHeap.key?, hu.1.keys]
      show (p.heap.setKey n.1 (b - n.2)).key? x = _
      rw [MinHeap.key?_setKey, share_single]
      by_cases hx : x = n.1
      · rw [hx, hb] at ha
        rw [if_pos hx, hb, if_pos (decide_eq_true hx.symm), Option.some.inj ha]
        rfl
      · rw [if_neg hx, ha, if_neg (by rw [decide_eq_true_eq]; exact Ne.symm hx), sub_zero]
    · rw [share_single, if_pos hc]
      rfl
  · rw [if_neg hc]
    refine ⟨hv, fun _ => rfl, fun x a hx ha => ?_, ?_⟩
    · have hne : ¬decide (n.1 = x) = true := by
        rw [decide_eq_true_eq]
        intro he
        exact hc (he ▸ hx)
      rw [share_single, if_neg hne, sub_zero, ha]
    · rw [share_single, if_neg hc, mul_zero, sub_zero]

/-- Lowering several degrees lowers each of them by all that belongs to it. -/
theorem foldl_lower (ns : List (Nat × Rat)) : ∀ {p : Peel Rat}, p.heap.Valid →
    Lowered p ns (ns.foldl lower p) := by
  induction ns with
  | nil =>
    intro p hv
    refine ⟨hv, fun _ => rfl, fun x a _ ha => ?_, ?_⟩
    · rw [share_nil, sub_zero]
      exact ha
    · rw [share_nil, mul_zero, sub_zero]
      rfl
  | cons n ns ih =>
    intro p hv
    have hstep := lower_spec hv n
    have hrest := ih hstep.valid
    rw [List.foldl_cons]
    refine ⟨hrest.valid, fun x => (hrest.contains x).trans (hstep.contains x),
      fun x a hx ha => ?_, ?_⟩
    · rw [hrest.key x _ ((hstep.contains x).trans hx) (hstep.key x a hx ha), share_single,
        share_cons n ns, sub_sub]
    · rw [hrest.degreeSum, hstep.degreeSum, share_single, share_cons n ns]
      simp only [hstep.contains]
      ring

end Peel

/-! ## Stages -/

/-- The heap holds the places of the members in a set, with their degrees in it. -/
structure Tracks (links : List (Link Rat)) (members : List Nat) (R : Finset Nat)
    (p : Peel Rat) : Prop where
  valid : p.heap.Valid
  contains : ∀ i, p.heap.contains i = true ↔ ∃ m ∈ R, members[i]? = some m
  key : ∀ i m, members[i]? = some m → m ∈ R →
    p.heap.key? i = some (degreeIn (coupled links) R m)
  degreeSum : p.degreeSum = degreeSum (coupled links) R

/-- Keys in exact arithmetic are ordered like pairs of numbers. -/
theorem rankOrder_eq_lt {a b : Rat} {x y : Nat} :
    rankOrder (a, x) (b, y) = .lt ↔ a < b ∨ (a = b ∧ x < y) := by
  show (Weight.order a b).then (compare x y) = .lt ↔ _
  rw [Ordering.then_eq_lt, Weight.rat_order_eq_lt, Nat.compare_eq_lt]
  constructor
  · rintro (h | ⟨h, hxy⟩)
    · exact Or.inl h
    · refine Or.inr ⟨?_, hxy⟩
      exact le_antisymm (Weight.rat_order_isLE.mp (by rw [h]; rfl))
        (Weight.rat_order_isLE.mp (by rw [Std.OrientedCmp.eq_symm h]; rfl))
  · rintro (h | ⟨h, hxy⟩)
    · exact Or.inl h
    · exact Or.inr ⟨by rw [h]; exact Std.ReflCmp.compare_self, hxy⟩

section Stages

variable {count : Nat} {members : List Nat} {links : List (Link Rat)} {R : Finset Nat}
variable {p : Peel Rat}

/-- Members stand in the order of their numbers. -/
theorem getElem?_lt (hsorted : members.Pairwise (· < ·)) {i j u m : Nat}
    (hi : members[i]? = some u) (hj : members[j]? = some m) : u < m ↔ i < j := by
  obtain ⟨hilt, hu⟩ := List.getElem?_eq_some_iff.mp hi
  obtain ⟨hjlt, hm⟩ := List.getElem?_eq_some_iff.mp hj
  rw [← hu, ← hm]
  constructor
  · intro hlt
    by_contra hn
    rcases Nat.lt_or_eq_of_le (Nat.le_of_not_lt hn) with hji | hji
    · exact absurd hlt (List.pairwise_iff_getElem.mp hsorted j i hjlt hilt hji).not_gt
    · subst hji
      exact lt_irrefl _ hlt
  · exact fun hij => List.pairwise_iff_getElem.mp hsorted i j hilt hjlt hij

/-- A member stands at one place. -/
theorem getElem?_inj (hsorted : members.Pairwise (· < ·)) {i j u m : Nat}
    (hi : members[i]? = some u) (hj : members[j]? = some m) : i = j ↔ u = m := by
  have h1 := getElem?_lt hsorted hi hj
  have h2 := getElem?_lt hsorted hj hi
  omega

/-- The first item of the heap is the place of the weakest node. -/
theorem Tracks.weakest (ht : Tracks links members R p) (hsorted : members.Pairwise (· < ·))
    {x m : Nat} (hm : m ∈ R) (hx : members[x]? = some m) (hR : ∀ u ∈ R, u ∈ members)
    (hfirst : ∀ y, p.heap.contains y = true → ¬p.heap.itemBefore y x = true) :
    weakest? (coupled links) R = some m := by
  refine weakest?_eq_some.mpr ⟨hm, fun u hu => ?_⟩
  obtain ⟨j, hj⟩ := List.getElem?_of_mem (hR u hu)
  have hn := hfirst j ((ht.contains j).mpr ⟨u, hu, hj⟩)
  rw [MinHeap.itemBefore_eq (ht.key j u hj hu) (ht.key x m hx hm), rankOrder_eq_lt,
    ← getElem?_lt hsorted hj hx] at hn
  rw [weakness_le_iff]
  by_contra hc
  rcases lt_trichotomy (degreeIn (coupled links) R m) (degreeIn (coupled links) R u) with
    h | h | h
  · exact hc (Or.inl h)
  · exact hn (Or.inr ⟨h.symm, by
      by_contra hle
      exact hc (Or.inr ⟨h, Nat.le_of_not_lt hle⟩)⟩)
  · exact hn (Or.inl h)

variable (hlinks : ∀ l ∈ links, l.source ≠ l.target) (hsorted : members.Pairwise (· < ·))
variable (hlt : ∀ m ∈ members, m < count)

/-- The neighbours of the member at a place, as the peeling finds them. -/
theorem adjacent_eq {i m : Nat} (hlinks : ∀ l ∈ links, l.source ≠ l.target)
    (hsorted : members.Pairwise (· < ·)) (hlt : ∀ m ∈ members, m < count)
    (hi : members[i]? = some m) :
    (Adjacency.ofLinks members.length (Graph.linksWithin count members links))[i]?.getD [] =
      neighbours (Graph.linksWithin count members links) i := by
  have hilt := (List.getElem?_eq_some_iff.mp hi).1
  rw [getElem?_ofLinks (linksWithin_ne (hsorted.imp ne_of_lt) hlt hlinks), if_pos hilt]
  rfl

include hlinks hsorted hlt

/-- The member taken away is the weakest, and what remains is tracked by the stage after it. -/
theorem Tracks.next {v : Nat} (ht : Tracks links members R p) (hR : ∀ u ∈ R, u ∈ members)
    (hv : weakest? (coupled links) R = some v) :
    ∃ x p', p.next? (.ofLinks members.length (Graph.linksWithin count members links)) =
      some (x, p') ∧ members[x]? = some v ∧ Tracks links members (R.erase v) p' := by
  have hnodup : members.Nodup := hsorted.imp ne_of_lt
  have hW := coupled_mutual hlinks
  have hvR := (weakest?_eq_some.mp hv).1
  obtain ⟨i, hi⟩ := List.getElem?_of_mem (hR v hvR)
  obtain ⟨pos, hpos, -⟩ := ht.valid.indexed.item_of_contains ((ht.contains i).mpr ⟨v, hvR, hi⟩)
  -- the first item of the heap is the place of the weakest member
  have hpop := MinHeap.pop?_spec ht.valid
  rw [if_neg (by omega)] at hpop
  obtain ⟨x, a, heap, hpop, hd⟩ := hpop
  obtain ⟨m, hmR, hx⟩ := (ht.contains x).mp hd.contained
  have hmv : m = v := by
    have hw := ht.weakest hsorted hmR hx hR hd.first
    rw [hv] at hw
    exact (Option.some.inj hw).symm
  rw [hmv] at hx
  have hl := Peel.foldl_lower (neighbours (Graph.linksWithin count members links) x)
    (p := { p with heap }) hd.valid
  have hcont : ∀ i, heap.contains i = true ↔ ∃ m ∈ R.erase v, members[i]? = some m := by
    intro i
    rw [hd.contains, Bool.and_eq_true, ht.contains, decide_eq_true_eq]
    constructor
    · rintro ⟨⟨m, hm, hi⟩, hix⟩
      exact ⟨m, Finset.mem_erase.mpr ⟨fun he => hix ((getElem?_inj hsorted hi hx).mpr he), hm⟩, hi⟩
    · rintro ⟨m, hm, hi⟩
      rw [Finset.mem_erase] at hm
      exact ⟨⟨m, hm.2, hi⟩, fun he => hm.1 ((getElem?_inj hsorted hi hx).mp he)⟩
  refine ⟨x, _, ?_, hx, hl.valid, fun i => ?_, fun i m hi hm => ?_, ?_⟩
  · unfold Peel.next?
    rw [hpop]
    show some (x, List.foldl _ _ _) = _
    rw [adjacent_eq hlinks hsorted hlt hx]
  · rw [hl.contains]
    exact hcont i
  -- a member that remains loses what it was coupled with the one taken away
  · have hmR := (Finset.mem_erase.mp hm).2
    have hkey : heap.key? i = some (degreeIn (coupled links) R m) := by
      rw [← ht.key i m hi hmR, MinHeap.key?, MinHeap.key?, hd.keys]
    rw [hl.key i _ ((hcont i).mpr ⟨m, hm, hi⟩) hkey, degreeIn_erase hvR, hW.symm m v,
      coupled_eq_share,
      share_linksWithin hnodup hlt links hx _ fun w => decide (w = m)]
    · intro j u hj
      rw [decide_eq_decide]
      exact getElem?_inj hsorted hj hi
    · intro u hu
      rw [of_decide_eq_true hu]
      exact List.mem_of_getElem? hi
  -- the neighbours that remain are coupled by the whole degree of the one taken away
  · rw [hl.degreeSum, degreeSum_erase hW hvR, ← ht.degreeSum]
    have hself : degreeIn (coupled links) R v = degreeIn (coupled links) (R.erase v) v := by
      rw [degreeIn_erase hvR, hW.self, sub_zero]
    rw [hself, degreeIn_coupled,
      share_linksWithin hnodup hlt links hx _ fun w => decide (w ∈ R.erase v)]
    · intro j u hj
      rw [Bool.eq_iff_iff, decide_eq_true_eq]
      show heap.contains j = true ↔ _
      rw [hcont]
      constructor
      · rintro ⟨m, hm, hjm⟩
        rw [hj] at hjm
        rw [Option.some.inj hjm]
        exact hm
      · exact fun hu => ⟨u, hu, hj⟩
    · intro u hu
      exact hR u (Finset.mem_of_mem_erase (of_decide_eq_true hu))

/-- At first the keys are the degrees in the set of all members. -/
theorem degrees_eq :
    (Adjacency.ofLinks members.length (Graph.linksWithin count members links)).degrees.toList =
      members.map (degreeIn (coupled links) members.toFinset) := by
  have hnodup : members.Nodup := hsorted.imp ne_of_lt
  refine List.ext_getElem? fun i => ?_
  rw [Adjacency.degrees, Array.getElem?_toList, Array.getElem?_map, List.getElem?_map,
    getElem?_ofLinks (linksWithin_ne hnodup hlt hlinks)]
  cases hi : members[i]? with
  | none =>
    rw [if_neg (Nat.not_lt.mpr (List.getElem?_eq_none_iff.mp hi))]
    rfl
  | some m =>
    rw [if_pos (List.getElem?_eq_some_iff.mp hi).1, Option.map_some, Option.map_some,
      Weight.rat_sum, degreeIn_coupled,
      ← share_linksWithin hnodup hlt links hi (fun _ => true), share, List.filter_true]
    · intro j u hj
      exact (decide_eq_true (List.mem_toFinset.mpr (List.mem_of_getElem? hj))).symm
    · intro u hu
      exact List.mem_toFinset.mp (of_decide_eq_true hu)

/-- The first stage tracks all members. -/
theorem tracks_start :
    Tracks links members members.toFinset
      (.start (.ofLinks members.length (Graph.linksWithin count members links))) := by
  have hnodup : members.Nodup := hsorted.imp ne_of_lt
  have hdegrees := degrees_eq hlinks hsorted hlt
  generalize Adjacency.ofLinks members.length (Graph.linksWithin count members links) = adj at *
  show Tracks links members _
    { heap := .ofKeys adj.degrees, degreeSum := Weight.sum adj.degrees.toList }
  generalize adj.degrees = degrees at *
  obtain ⟨hv, hkeys, -, hcont⟩ := MinHeap.ofKeys_spec degrees
  have hsize : degrees.size = members.length := by
    rw [← Array.length_toList, hdegrees, List.length_map]
  refine ⟨hv, fun i => ?_, fun i m hi _ => ?_, ?_⟩
  · show (MinHeap.ofKeys degrees).contains i = true ↔ _
    rw [hcont, decide_eq_true_eq, hsize]
    constructor
    · intro hilt
      exact ⟨members[i], List.mem_toFinset.mpr (List.getElem_mem hilt),
        List.getElem?_eq_getElem hilt⟩
    · rintro ⟨m, -, hi⟩
      exact (List.getElem?_eq_some_iff.mp hi).1
  · show (MinHeap.ofKeys degrees).keys[i]? = _
    rw [hkeys, ← Array.getElem?_toList, hdegrees, List.getElem?_map, hi]
    rfl
  · show Weight.sum degrees.toList = _
    rw [Weight.rat_sum, hdegrees, degreeSum, List.sum_toFinset _ hnodup]

end Stages

/-- The stage after so many members were taken away, if there are so many. -/
def Peel.stage? (adj : Adjacency Rat) : Nat → Option (Peel Rat)
  | 0 => some (start adj)
  | k + 1 => (stage? adj k).bind fun p => (p.next? adj).map (·.2)

section Run

variable {count : Nat} {members : List Nat} {links : List (Link Rat)}
variable (hlinks : ∀ l ∈ links, l.source ≠ l.target) (hsorted : members.Pairwise (· < ·))
variable (hlt : ∀ m ∈ members, m < count)

theorem mem_of_mem_remains {W : Nat → Nat → Rat} {k u : Nat}
    (hu : u ∈ remains W members.toFinset k) : u ∈ members :=
  List.mem_toFinset.mp (remains_subset W _ k hu)

include hlinks hsorted hlt

/-- Every stage tracks what remains of the members. -/
theorem exists_stage {k : Nat} (hk : k ≤ members.length) :
    ∃ p, Peel.stage? (.ofLinks members.length (Graph.linksWithin count members links)) k = some p ∧
      Tracks links members (remains (coupled links) members.toFinset k) p := by
  induction k with
  | zero => exact ⟨_, rfl, tracks_start hlinks hsorted hlt⟩
  | succ k ih =>
    obtain ⟨p, hp, ht⟩ := ih (by omega)
    have hcard := List.toFinset_card_of_nodup (hsorted.imp ne_of_lt)
    obtain ⟨v, hv⟩ := exists_weakest (W := coupled links)
      (remains_nonempty (show k < members.toFinset.card by omega))
    obtain ⟨x, p', hp', -, ht'⟩ := ht.next hlinks hsorted hlt (fun u => mem_of_mem_remains) hv
    rw [← remains_succ hv] at ht'
    refine ⟨p', ?_, ht'⟩
    rw [Peel.stage?, hp, Option.bind_some, hp']
    rfl

end Run

end Cochange
