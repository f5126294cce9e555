import Cochange.Blob.Search
import Cochange.Proofs.Density.Plain
import Cochange.Proofs.Heap.Order

/-!
# Links as couplings

A list of links couples every two nodes by all the links between them. The search does not look
at pairs of nodes but at the neighbours of one, in the order of the links; `share` is what such a
list of neighbours adds up to over the nodes with some property.

* `getElem?_ofLinks`: the adjacency lists are the lists of neighbours.
* `degreeIn_coupled`: the degree of a node is the share of its neighbours in the set.
* `share_linksWithin`: numbering some members anew only translates the property.
-/

namespace Cochange

/-! ## Neighbours -/

namespace Link

variable {ω : Type}

/-- Whether a link joins two nodes. -/
def Joins (l : Link ω) (u v : Nat) : Prop :=
  (l.source = u ∧ l.target = v) ∨ (l.source = v ∧ l.target = u)

instance (l : Link ω) (u v : Nat) : Decidable (l.Joins u v) :=
  inferInstanceAs (Decidable ((l.source = u ∧ l.target = v) ∨ (l.source = v ∧ l.target = u)))

/-- The other end of a link of a node, and its coupling. -/
def from? (l : Link ω) (v : Nat) : Option (Nat × ω) :=
  if l.source = v then some (l.target, l.coupling)
  else if l.target = v then some (l.source, l.coupling)
  else none

/-- A link joins its ends in both orders. -/
theorem joins_comm (l : Link ω) (u v : Nat) : l.Joins u v ↔ l.Joins v u := by
  unfold Joins
  exact or_comm

/-- A link joins a number to the one that it leads to from there. -/
theorem joins_iff (l : Link ω) (u v : Nat) : l.Joins u v ↔ ∃ c, l.from? u = some (v, c) := by
  unfold Joins from?
  by_cases hs : l.source = u
  · rw [if_pos hs]
    simp only [Option.some.injEq, Prod.mk.injEq, exists_and_left, exists_eq', and_true]
    constructor
    · rintro (⟨-, ht⟩ | ⟨hv, ht⟩)
      · exact ht
      · rw [ht, ← hs, hv]
    · exact fun ht => Or.inl ⟨hs, ht⟩
  · rw [if_neg hs]
    by_cases ht : l.target = u
    · rw [if_pos ht]
      simp [hs, ht]
    · rw [if_neg ht]
      simp [hs, ht]

/-- A link of a node that has the number `i` is, renumbered, one of `i`. -/
theorem from?_renumber? {number? : Nat → Option Nat} {i m : Nat}
    (hm : ∀ u, number? u = some i ↔ u = m) (l : Link ω) :
    (l.renumber? number?).bind (·.from? i) =
      (l.from? m).bind fun n => (number? n.1).map fun a => (a, n.2) := by
  unfold renumber? from?
  by_cases hs : l.source = m
  · rw [(hm l.source).mpr hs, if_pos hs, Option.bind_some]
    cases number? l.target with
    | none => rfl
    | some b => exact if_pos rfl
  · rw [if_neg hs]
    by_cases ht : l.target = m
    · rw [(hm l.target).mpr ht, if_pos ht, Option.bind_some]
      cases ha : number? l.source with
      | none => rfl
      | some a =>
        have hai : a ≠ i := fun he => hs ((hm l.source).mp (he ▸ ha))
        exact (if_neg hai).trans (if_pos rfl)
    · rw [if_neg ht]
      cases ha : number? l.source with
      | none => rfl
      | some a =>
        cases hb : number? l.target with
        | none => rfl
        | some b =>
          have hai : a ≠ i := fun he => hs ((hm l.source).mp (he ▸ ha))
          have hbi : b ≠ i := fun he => ht ((hm l.target).mp (he ▸ hb))
          exact (if_neg hai).trans (if_neg hbi)

end Link

section Neighbours

variable {ω : Type}

/-- The other ends of the links of a node, and their couplings. -/
def neighbours (links : List (Link ω)) (v : Nat) : List (Nat × ω) :=
  links.filterMap (·.from? v)

/-- A link adds its other end to the neighbours of each of its ends. -/
theorem neighbours_cons (l : Link ω) (ls : List (Link ω)) (v : Nat) :
    neighbours (l :: ls) v =
      match l.from? v with
      | none => neighbours ls v
      | some n => n :: neighbours ls v := by
  rw [neighbours, List.filterMap_cons]
  cases l.from? v <;> rfl

theorem size_ofLinks (size : Nat) (links : List (Link ω)) :
    (Adjacency.ofLinks size links).size = size := by
  induction links with
  | nil => exact Array.size_replicate
  | cons l ls ih =>
    show (((Adjacency.ofLinks size ls).modify l.source _).modify l.target _).size = size
    rw [Array.size_modify, Array.size_modify, ih]

/-- The adjacency lists are the lists of neighbours. -/
theorem getElem?_ofLinks {links : List (Link ω)} (hlinks : ∀ l ∈ links, l.source ≠ l.target)
    (size v : Nat) :
    (Adjacency.ofLinks size links)[v]? = if v < size then some (neighbours links v) else none := by
  induction links with
  | nil => exact Array.getElem?_replicate
  | cons l ls ih =>
    have hl := hlinks l List.mem_cons_self
    have hrest := ih fun l' hl' => hlinks l' (List.mem_cons_of_mem l hl')
    show (((Adjacency.ofLinks size ls).modify l.source _).modify l.target _)[v]? = _
    rw [Array.getElem?_modify, Array.getElem?_modify, hrest, neighbours_cons, Link.from?]
    by_cases hs : l.source = v
    · have ht : ¬l.target = v := fun ht => hl (hs.trans ht.symm)
      rw [if_neg ht, if_pos hs, if_pos hs]
      split <;> rfl
    · rw [if_neg hs, if_neg hs]
      by_cases ht : l.target = v
      · rw [if_pos ht, if_pos ht]
        split <;> rfl
      · rw [if_neg ht, if_neg ht]

end Neighbours

/-! ## Couplings -/

/-- The total coupling of the links between two nodes. -/
def coupled (links : List (Link Rat)) (u v : Nat) : Rat :=
  ((links.filter fun l => l.Joins u v).map (·.coupling)).sum

/-- The total coupling of the neighbours with a property. -/
def share (ns : List (Nat × Rat)) (p : Nat → Bool) : Rat :=
  ((ns.filter fun n => p n.1).map (·.2)).sum

section Couplings

variable {links : List (Link Rat)}

/-- Links between different numbers couple them in both directions, and no number to itself. -/
theorem coupled_mutual (hlinks : ∀ l ∈ links, l.source ≠ l.target) : Mutual (coupled links) where
  symm u v := by
    unfold coupled
    simp only [Link.joins_comm _ u v]
  self v := by
    have hnone : (links.filter fun l => l.Joins v v) = [] := by
      rw [List.filter_eq_nil_iff]
      intro l hl hj
      rcases of_decide_eq_true hj with ⟨hs, ht⟩ | ⟨hs, ht⟩
      · exact hlinks l hl (hs.trans ht.symm)
      · exact hlinks l hl (hs.trans ht.symm)
    rw [coupled, hnone]
    rfl

/-- Numbers are coupled by nothing negative if no link is negative. -/
theorem coupled_nonneg (hlinks : ∀ l ∈ links, 0 ≤ l.coupling) (u v : Nat) :
    0 ≤ coupled links u v := by
  refine List.sum_nonneg fun c hc => ?_
  obtain ⟨l, hl, rfl⟩ := List.mem_map.mp hc
  exact hlinks l (List.mem_of_mem_filter hl)

theorem share_cons (n : Nat × Rat) (ns : List (Nat × Rat)) (p : Nat → Bool) :
    share (n :: ns) p = (if p n.1 then n.2 else 0) + share ns p := by
  unfold share
  rw [List.filter_cons]
  split
  next => rw [List.map_cons, List.sum_cons]
  next => rw [zero_add]

theorem share_nil (p : Nat → Bool) : share [] p = 0 := rfl

theorem share_single (n : Nat × Rat) (p : Nat → Bool) :
    share [n] p = if p n.1 then n.2 else 0 := by
  rw [share_cons, share_nil, add_zero]

/-- A link adds its coupling to that of its ends. -/
theorem coupled_cons (l : Link Rat) (ls : List (Link Rat)) (u v : Nat) :
    coupled (l :: ls) u v = (if l.Joins u v then l.coupling else 0) + coupled ls u v := by
  unfold coupled
  rw [List.filter_cons]
  by_cases hj : l.Joins u v
  · rw [if_pos (decide_eq_true hj), if_pos hj, List.map_cons, List.sum_cons]
  · rw [if_neg (by rw [decide_eq_true_eq]; exact hj), if_neg hj, zero_add]

/-- The degree of a node in a set is the share of its neighbours that are in it. -/
theorem degreeIn_coupled (links : List (Link Rat)) (S : Finset Nat) (v : Nat) :
    degreeIn (coupled links) S v = share (neighbours links v) fun u => decide (u ∈ S) := by
  induction links with
  | nil => exact Finset.sum_eq_zero fun u _ => rfl
  | cons l ls ih =>
    have hsplit : degreeIn (coupled (l :: ls)) S v =
        (∑ u ∈ S, if l.Joins v u then l.coupling else 0) + degreeIn (coupled ls) S v := by
      rw [degreeIn, degreeIn, ← Finset.sum_add_distrib]
      exact Finset.sum_congr rfl fun u _ => coupled_cons l ls v u
    rw [hsplit, ih, neighbours_cons]
    cases hf : l.from? v with
    | none =>
      have hzero : ∑ u ∈ S, (if l.Joins v u then l.coupling else 0) = 0 := by
        refine Finset.sum_eq_zero fun u _ => if_neg fun hj => ?_
        obtain ⟨c, hc⟩ := (l.joins_iff v u).mp hj
        rw [hf] at hc
        exact absurd hc (by simp)
      rw [hzero, zero_add]
    | some n =>
      have hc : n.2 = l.coupling := by
        unfold Link.from? at hf
        split at hf
        · rw [← Option.some.inj hf]
        · split at hf
          · rw [← Option.some.inj hf]
          · exact absurd hf (by simp)
      have hj : ∀ u, l.Joins v u ↔ u = n.1 := by
        intro u
        rw [l.joins_iff v u, hf]
        constructor
        · rintro ⟨c, hn⟩
          rw [Option.some.inj hn]
        · intro hu
          exact ⟨n.2, by rw [hu]⟩
      simp only [hj]
      rw [Finset.sum_ite_eq', share_cons, hc]
      simp only [decide_eq_true_eq]

/-- Two nodes are coupled by the share of the one among the neighbours of the other. -/
theorem coupled_eq_share (links : List (Link Rat)) (u v : Nat) :
    coupled links v u = share (neighbours links v) fun w => decide (w = u) := by
  have hd := degreeIn_coupled links {u} v
  rw [degreeIn, Finset.sum_singleton] at hd
  simp only [Finset.mem_singleton] at hd
  exact hd

end Couplings

/-! ## Members -/

section Members

variable {ω : Type} {count : Nat} {members : List Nat}

theorem size_places (count : Nat) (members : List Nat) :
    (Graph.places count members).size = count := by
  have hfold : ∀ (ms : List (Nat × Nat)) (a : Array (Option Nat)),
      (ms.foldl (fun a m => a.setIfInBounds m.1 (some m.2)) a).size = a.size := by
    intro ms
    induction ms with
    | nil => exact fun _ => rfl
    | cons m ms ih =>
      intro a
      rw [List.foldl_cons, ih, Array.size_setIfInBounds]
  rw [Graph.places, hfold, Array.size_replicate]

/-- A further member has its place behind the others. -/
theorem places_append (count : Nat) (ms : List Nat) (m : Nat) :
    Graph.places count (ms ++ [m]) =
      (Graph.places count ms).setIfInBounds m (some ms.length) := by
  unfold Graph.places
  rw [List.zipIdx_append, List.foldl_append, Nat.zero_add]
  rfl

/-- The place of a member is where it stands in the list. -/
theorem places_eq_some (hnodup : members.Nodup) (hlt : ∀ m ∈ members, m < count) {u i : Nat} :
    (Graph.places count members)[u]?.join = some i ↔ members[i]? = some u := by
  induction members using List.reverseRecOn generalizing i with
  | nil =>
    show ((Array.replicate count none)[u]?).join = some i ↔ _
    rw [Array.getElem?_replicate]
    split <;> simp
  | append_singleton ms m ih =>
    obtain ⟨hms, -, hdisj⟩ := List.nodup_append.mp hnodup
    have hm : m ∉ ms := fun hin => hdisj m hin m List.mem_cons_self rfl
    have hmlt := hlt m (List.mem_append_right ms List.mem_cons_self)
    have hrest := ih (i := i) hms fun x hx => hlt x (List.mem_append_left [m] hx)
    rw [places_append, MinHeap.join_setIfInBounds, size_places, List.getElem?_append]
    by_cases hu : u = m
    -- the last member stands in the last place only
    · rw [if_pos ⟨hu, hmlt⟩, hu]
      split
      next hi =>
        constructor
        · intro he
          rw [Option.some.injEq] at he
          omega
        · intro he
          exact absurd (List.mem_of_getElem? he) hm
      next hi =>
        rw [List.getElem?_singleton, Option.some.injEq]
        constructor
        · intro he
          rw [if_pos (by omega)]
        · intro he
          have := (Option.ite_none_right_eq_some.mp he).1
          omega
    · rw [if_neg (fun hc => hu hc.1), hrest]
      split
      next => rfl
      next hi =>
        rw [List.getElem?_eq_none (by omega), List.getElem?_singleton]
        constructor
        · exact fun he => absurd he (by simp)
        · intro he
          exact absurd (Option.some.inj (Option.ite_none_right_eq_some.mp he).2).symm hu

variable (hnodup : members.Nodup) (hlt : ∀ m ∈ members, m < count) {links : List (Link ω)}

include hnodup hlt

/-- Links between members have two different places as ends. -/
theorem linksWithin_ne (hlinks : ∀ l ∈ links, l.source ≠ l.target) :
    ∀ l ∈ Graph.linksWithin count members links, l.source ≠ l.target := by
  intro l hl heq
  obtain ⟨l', hl', hsome⟩ := List.mem_filterMap.mp hl
  unfold Link.renumber? at hsome
  split at hsome
  next a b ha hb =>
    rw [← Option.some.inj hsome] at heq
    have hab : a = b := heq
    rw [places_eq_some hnodup hlt] at ha hb
    rw [← hab, ha] at hb
    exact hlinks l' hl' (Option.some.inj hb)
  next => exact absurd hsome (by simp)

/-- The neighbours of a member among the members are its neighbours, numbered anew. -/
theorem neighbours_linksWithin {i m : Nat} (hi : members[i]? = some m) :
    neighbours (Graph.linksWithin count members links) i =
      (neighbours links m).filterMap fun n =>
        (Graph.places count members)[n.1]?.join.map fun a => (a, n.2) := by
  have hm : ∀ u, (Graph.places count members)[u]?.join = some i ↔ u = m := by
    intro u
    rw [places_eq_some hnodup hlt, hi, Option.some.injEq]
    exact eq_comm
  unfold neighbours Graph.linksWithin
  rw [List.filterMap_filterMap, List.filterMap_filterMap]
  exact List.filterMap_congr fun l _ => l.from?_renumber? hm

end Members

/-- Numbering some members anew only translates a property of the neighbours. -/
theorem share_linksWithin {count : Nat} {members : List Nat} (hnodup : members.Nodup)
    (hlt : ∀ m ∈ members, m < count) (links : List (Link Rat)) {i m : Nat}
    (hi : members[i]? = some m) (p q : Nat → Bool)
    (hp : ∀ j u, members[j]? = some u → p j = q u) (hq : ∀ u, q u = true → u ∈ members) :
    share (neighbours (Graph.linksWithin count members links) i) p = share (neighbours links m) q := by
  rw [neighbours_linksWithin hnodup hlt hi]
  induction neighbours links m with
  | nil => rfl
  | cons n ns ih =>
    rw [List.filterMap_cons, share_cons, ← ih]
    cases hn : (Graph.places count members)[n.1]?.join with
    | none =>
      -- a neighbour without a place is no member, and has not the property
      have hout : q n.1 ≠ true := by
        intro hqn
        obtain ⟨j, hj⟩ := List.getElem?_of_mem (hq n.1 hqn)
        rw [← places_eq_some hnodup hlt, hn] at hj
        exact absurd hj (by simp)
      rw [if_neg hout, zero_add]
      rfl
    | some j =>
      have hj := (places_eq_some hnodup hlt).mp hn
      rw [← hp j n.1 hj]
      exact share_cons (j, n.2) _ p

end Cochange
