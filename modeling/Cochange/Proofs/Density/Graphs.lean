import Cochange.Proofs.Density.Links
import Cochange.Proofs.Graph.Components

/-!
# Graphs as couplings

A graph couples every two labels by all the edges between them, whatever their direction. Edges
from a label to itself and edges whose ends are no nodes do not count. Numbering the labels, as
the search does, changes no density (`density_numbers`), and labels in different classes are not
coupled (`joined_eq_zero`).
-/

namespace Cochange

namespace Graph

/-- The total coupling of the edges between two different labels. -/
def joined (g : Graph Rat) (u v : String) : Rat :=
  if u = v then 0
  else
    ((g.edges.filter fun e =>
      (e.source = u ∧ e.target = v) ∨ (e.source = v ∧ e.target = u)).map (·.coupling)).sum

variable {g : Graph Rat} {u v : String} {a b : Nat}

/-! ## Links -/

/-- An edge is a link between the numbers of its ends, if it has two different ones. -/
theorem linkOf?_eq_some {numbers : Std.ExtTreeMap String Nat} {e : Edge Rat} {l : Link Rat} :
    linkOf? numbers e = some l ↔
      numbers[e.source]? = some l.source ∧ numbers[e.target]? = some l.target ∧
        l.source ≠ l.target ∧ e.coupling = l.coupling := by
  unfold linkOf?
  split
  next a b ha hb =>
    rw [ha, hb, Option.ite_none_left_eq_some, Option.some.injEq, Option.some.injEq,
      Option.some.injEq]
    constructor
    · rintro ⟨hne, rfl⟩
      exact ⟨rfl, rfl, hne, rfl⟩
    · rintro ⟨rfl, rfl, hne, hc⟩
      exact ⟨hne, by rw [hc]⟩
  next hn =>
    exact ⟨fun h => absurd h (by simp), fun ⟨ha, hb, _⟩ => (hn _ _ ha hb).elim⟩

/-- A link has two different ends. -/
theorem links_ne (g : Graph Rat) (numbers : Std.ExtTreeMap String Nat) :
    ∀ l ∈ g.links numbers, l.source ≠ l.target := by
  intro l hl
  obtain ⟨e, -, he⟩ := List.mem_filterMap.mp hl
  exact (linkOf?_eq_some.mp he).2.2.1

/-- Links are not negative if the edges are not. -/
theorem links_nonneg (hg : ∀ e ∈ g.edges, 0 ≤ e.coupling)
    (numbers : Std.ExtTreeMap String Nat) : ∀ l ∈ g.links numbers, 0 ≤ l.coupling := by
  intro l hl
  obtain ⟨e, hmem, he⟩ := List.mem_filterMap.mp hl
  rw [← (linkOf?_eq_some.mp he).2.2.2]
  exact hg e hmem

/-- An edge between two different nodes gives a link between their numbers, and no other does. -/
theorem joins_linkOf? (hu : g.numbers[u]? = some a) (hv : g.numbers[v]? = some b) (huv : u ≠ v)
    (e : Edge Rat) :
    ((e.source = u ∧ e.target = v) ∨ (e.source = v ∧ e.target = u)) ↔
      ∃ l, linkOf? g.numbers e = some l ∧ l.Joins a b := by
  have hab : a ≠ b := fun he => huv (number_inj hu (he ▸ hv))
  constructor
  · rintro (⟨hs, ht⟩ | ⟨hs, ht⟩)
    · exact ⟨⟨a, b, e.coupling⟩, linkOf?_eq_some.mpr ⟨hs ▸ hu, ht ▸ hv, hab, rfl⟩,
        Or.inl ⟨rfl, rfl⟩⟩
    · exact ⟨⟨b, a, e.coupling⟩, linkOf?_eq_some.mpr ⟨hs ▸ hv, ht ▸ hu, hab.symm, rfl⟩,
        Or.inr ⟨rfl, rfl⟩⟩
  · rintro ⟨l, hl, hj⟩
    obtain ⟨hs, ht, -⟩ := linkOf?_eq_some.mp hl
    rcases hj with ⟨hla, hlb⟩ | ⟨hlb, hla⟩
    · exact Or.inl ⟨number_inj (hla ▸ hs) hu, number_inj (hlb ▸ ht) hv⟩
    · exact Or.inr ⟨number_inj (hlb ▸ hs) hv, number_inj (hla ▸ ht) hu⟩

/-- The links between two numbers are the edges between the labels that have them. -/
theorem coupled_links (hu : g.numbers[u]? = some a) (hv : g.numbers[v]? = some b) :
    coupled (g.links g.numbers) a b = g.joined u v := by
  unfold joined
  split
  next huv =>
    have hab : a = b := by
      rw [huv, hv] at hu
      exact (Option.some.inj hu).symm
    rw [hab]
    exact (coupled_mutual (g.links_ne g.numbers)).self b
  next huv =>
    unfold links
    induction g.edges with
    | nil => rfl
    | cons e es ih =>
      have hj := joins_linkOf? hu hv huv e
      rw [List.filterMap_cons, List.filter_cons]
      -- the edge counts exactly if it gives a link that counts
      cases hl : linkOf? g.numbers e with
      | none =>
        rw [if_neg, ih]
        rw [decide_eq_true_eq, hj]
        rintro ⟨l, hsome, -⟩
        rw [hl] at hsome
        exact absurd hsome (by simp)
      | some l =>
        have hiff : l.Joins a b ↔ (e.source = u ∧ e.target = v) ∨ (e.source = v ∧ e.target = u) := by
          rw [hj, hl]
          simp
        rw [coupled_cons, ih]
        simp only [decide_eq_true_eq, hiff]
        split
        next => rw [List.map_cons, List.sum_cons, (linkOf?_eq_some.mp hl).2.2.2]
        next => rw [zero_add]

/-! ## Densities -/

/-- The number of a label. -/
def number (g : Graph Rat) (l : String) : Nat :=
  g.numbers[l]?.getD 0

/-- Every label of a node has a number. -/
theorem numbers_eq_number {l : String} (hl : l ∈ g.labels) :
    g.numbers[l]? = some (g.number l) := by
  obtain ⟨i, hi⟩ := exists_number_iff.mpr hl
  rw [number, hi]
  rfl

/-- Different labels have different numbers. -/
theorem number_injOn {T : Finset String} (hT : ∀ l ∈ T, l ∈ g.labels) : Set.InjOn g.number T := by
  intro l hl l' hl' heq
  have hn := numbers_eq_number (hT l hl)
  rw [heq] at hn
  exact number_inj hn (numbers_eq_number (hT l' hl'))

/-- Numbering the labels changes no density. -/
theorem density_numbers {T : Finset String} (hT : ∀ l ∈ T, l ∈ g.labels) :
    density (coupled (g.links g.numbers)) (T.image g.number) = density g.joined T :=
  density_image (number_injOn hT) fun u hu v hv =>
    coupled_links (numbers_eq_number (hT u hu)) (numbers_eq_number (hT v hv))

/-- Numbering the labels changes no degree. -/
theorem degreeIn_numbers {T : Finset String} (hT : ∀ l ∈ T, l ∈ g.labels) {l : String}
    (hl : l ∈ T) :
    degreeIn (coupled (g.links g.numbers)) (T.image g.number) (g.number l) = degreeIn g.joined T l :=
  degreeIn_image (number_injOn hT)
    (fun u hu v hv => coupled_links (numbers_eq_number (hT u hu)) (numbers_eq_number (hT v hv))) hl

/-! ## Edges inside a set -/

/-- The total coupling of the edges between two different labels of a set. -/
def inside (g : Graph Rat) (T : Finset String) : Rat :=
  ((g.edges.filter fun e => e.source ≠ e.target ∧ e.source ∈ T ∧ e.target ∈ T).map
    (·.coupling)).sum

/-- What an edge adds to the coupling of two labels. -/
def couples (e : Edge Rat) (u v : String) : Rat :=
  if u ≠ v ∧ ((e.source = u ∧ e.target = v) ∨ (e.source = v ∧ e.target = u)) then e.coupling else 0

/-- The coupling of two labels is made up edge by edge. -/
theorem joined_eq_sum (g : Graph Rat) (u v : String) :
    g.joined u v = (g.edges.map fun e => couples e u v).sum := by
  unfold joined
  induction g.edges with
  | nil => exact ite_self 0
  | cons e es ih =>
    rw [List.map_cons, List.sum_cons, ← ih, couples, List.filter_cons]
    by_cases huv : u = v
    · rw [if_pos huv, if_pos huv, if_neg fun h => h.1 huv, zero_add]
    · rw [if_neg huv, if_neg huv]
      simp only [ne_eq, huv, not_false_eq_true, true_and, decide_eq_true_eq]
      split
      next => rw [List.map_cons, List.sum_cons]
      next => rw [zero_add]

/-- An edge from a label to itself couples nothing. -/
theorem couples_of_eq {e : Edge Rat} (he : e.source = e.target) (u v : String) :
    couples e u v = 0 := by
  refine if_neg ?_
  rintro ⟨huv, ⟨hs, ht⟩ | ⟨hs, ht⟩⟩
  · exact huv (hs.symm.trans (he.trans ht))
  · exact huv (ht.symm.trans (he.symm.trans hs))

/-- Any other edge couples each of its ends with the other one. -/
theorem couples_of_ne {e : Edge Rat} (hne : e.source ≠ e.target) (u v : String) :
    couples e u v =
      (if e.source = u then if e.target = v then e.coupling else 0 else 0) +
        if e.target = u then if e.source = v then e.coupling else 0 else 0 := by
  unfold couples
  by_cases hs : e.source = u
  · have ht : e.target ≠ u := fun ht => hne (hs.trans ht.symm)
    rw [if_pos hs, if_neg ht, add_zero]
    refine if_congr ⟨?_, fun h => ⟨fun huv => ht (h.trans huv.symm), Or.inl ⟨hs, h⟩⟩⟩ rfl rfl
    rintro ⟨-, ⟨-, h⟩ | ⟨-, h⟩⟩
    · exact h
    · exact absurd h ht
  · rw [if_neg hs, zero_add]
    by_cases ht : e.target = u
    · rw [if_pos ht]
      refine if_congr ⟨?_, fun h => ⟨fun huv => hs (h.trans huv.symm), Or.inr ⟨h, ht⟩⟩⟩ rfl rfl
      rintro ⟨-, ⟨h, -⟩ | ⟨h, -⟩⟩
      · exact absurd h hs
      · exact h
    · rw [if_neg ht, if_neg]
      rintro ⟨-, ⟨h, -⟩ | ⟨-, h⟩⟩
      · exact hs h
      · exact ht h

/-- What an edge adds to the degree of a label in a set. -/
theorem sum_couples_row (e : Edge Rat) (T : Finset String) (u : String) :
    ∑ v ∈ T, couples e u v =
      if e.source ≠ e.target then
        (if e.source = u ∧ e.target ∈ T then e.coupling else 0) +
          if e.target = u ∧ e.source ∈ T then e.coupling else 0
      else 0 := by
  by_cases hne : e.source = e.target
  · rw [if_neg fun h => h hne]
    exact Finset.sum_eq_zero fun v _ => couples_of_eq hne u v
  · rw [if_pos hne]
    simp only [couples_of_ne hne, Finset.sum_add_distrib, Finset.sum_ite_eq, Finset.sum_ite_irrel,
      Finset.sum_const_zero, ite_and]

/-- An edge inside a set couples both its ends, each with the other. -/
theorem sum_couples (e : Edge Rat) (T : Finset String) :
    ∑ u ∈ T, ∑ v ∈ T, couples e u v =
      if e.source ≠ e.target ∧ e.source ∈ T ∧ e.target ∈ T then 2 * e.coupling else 0 := by
  simp only [sum_couples_row]
  by_cases hne : e.source = e.target
  · simp [hne]
  · simp only [ne_eq, hne, not_false_eq_true, if_true, true_and, Finset.sum_add_distrib, ite_and,
      Finset.sum_ite_eq]
    by_cases hs : e.source ∈ T <;> by_cases ht : e.target ∈ T <;> simp [hs, ht, two_mul]

/-- In the degrees of a set every edge inside it counts twice. -/
theorem degreeSum_joined (g : Graph Rat) (T : Finset String) :
    degreeSum g.joined T = 2 * g.inside T := by
  unfold degreeSum degreeIn inside
  simp only [joined_eq_sum]
  induction g.edges with
  | nil => simp
  | cons e es ih =>
    simp only [List.map_cons, List.sum_cons, Finset.sum_add_distrib, ih, sum_couples]
    rw [List.filter_cons]
    by_cases hin : e.source ≠ e.target ∧ e.source ∈ T ∧ e.target ∈ T
    · rw [if_pos hin, if_pos (decide_eq_true hin), List.map_cons, List.sum_cons, mul_add]
    · rw [if_neg hin, if_neg (by rw [decide_eq_true_eq]; exact hin), zero_add]

/-! ## Components -/

/-- Labels in different classes are not coupled. -/
theorem joined_eq_zero (hu : u ∈ g.labels) (hv : v ∈ g.labels) (hne : g.classOf u ≠ g.classOf v) :
    g.joined u v = 0 := by
  unfold joined
  split
  next => rfl
  next =>
    have hnone : (g.edges.filter fun e =>
        (e.source = u ∧ e.target = v) ∨ (e.source = v ∧ e.target = u)) = [] := by
      rw [List.filter_eq_nil_iff]
      intro e he hj
      rcases of_decide_eq_true hj with ⟨hs, ht⟩ | ⟨hs, ht⟩
      · have hc := classOf_edge he (hs ▸ hu) (ht ▸ hv)
        rw [hs, ht] at hc
        exact hne hc
      · have hc := classOf_edge he (hs ▸ hv) (ht ▸ hu)
        rw [hs, ht] at hc
        exact hne hc.symm
    rw [hnone]
    rfl

end Graph

end Cochange
