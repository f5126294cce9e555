import Cochange.SourceNode.Basic
import Mathlib.Data.List.Basic
import Mathlib.Data.List.Induction

/-!
# Places in a source node

A node below another one is told by its place: which child comes next, on the way down to it. Two
nodes may look alike, but no two are at the same place. Document order is the order of the places as
words, in which what is around a node comes before it (`places_sorted`).

The places are listed by recursion over the tree (`places`), and there is one for each node
(`mem_places`, `length_places`).
-/

namespace Cochange

namespace SourceNode

/-! ## Induction over a tree -/

mutual

/-- What passes from the children of each node to the node holds everywhere. -/
@[elab_as_elim]
theorem children_induction {P : SourceNode → Prop}
    (step : ∀ n, (∀ c ∈ n.children, P c) → P n) : ∀ n : SourceNode, P n
  | file _ entities => step _ (children_induction_each step entities)
  | type _ _ _ members => step _ (children_induction_each step members)
  | var .. => step _ (List.forall_mem_nil P)
  | function .. => step _ (List.forall_mem_nil P)

theorem children_induction_each {P : SourceNode → Prop}
    (step : ∀ n, (∀ c ∈ n.children, P c) → P n) : ∀ (ns : List SourceNode), ∀ c ∈ ns, P c
  | [] => List.forall_mem_nil P
  | n :: ns => List.forall_mem_cons.mpr ⟨children_induction step n, children_induction_each step ns⟩

end

/-! ## How many nodes there are -/

mutual

/-- How many nodes a tree has. -/
def size : SourceNode → Nat
  | file _ entities => 1 + sizeEach entities
  | type _ _ _ members => 1 + sizeEach members
  | var .. | function .. => 1

/-- How many nodes some trees have together. -/
def sizeEach : List SourceNode → Nat
  | [] => 0
  | n :: ns => n.size + sizeEach ns

end

theorem size_eq (n : SourceNode) : n.size = 1 + sizeEach n.children := by
  cases n <;> simp [size, children, sizeEach]

theorem sizeEach_append (ns ms : List SourceNode) :
    sizeEach (ns ++ ms) = sizeEach ns + sizeEach ms := by
  induction ns with
  | nil => exact (Nat.zero_add _).symm
  | cons n ns ih => rw [List.cons_append, sizeEach, ih, sizeEach, Nat.add_assoc]

/-! ## What is at a place -/

/-- A way down from a node: which child is next, counted from zero. -/
abbrev Place :=
  List Nat

/-- The node at a place, if there is one. -/
def nodeAt? (n : SourceNode) : Place → Option SourceNode
  | [] => some n
  | i :: p => n.children[i]?.bind (nodeAt? · p)

/-- A place below a place is found from there. -/
theorem nodeAt?_append (n : SourceNode) (p q : Place) :
    n.nodeAt? (p ++ q) = (n.nodeAt? p).bind (·.nodeAt? q) := by
  induction p generalizing n with
  | nil => rfl
  | cons i p ih =>
    show n.children[i]?.bind _ = (n.children[i]?.bind _).bind _
    rw [Option.bind_assoc]
    congr 1
    exact funext ih

/-- What is above a node is there too. -/
theorem exists_nodeAt?_of_append {n m : SourceNode} {p q : Place}
    (h : n.nodeAt? (p ++ q) = some m) : ∃ above, n.nodeAt? p = some above := by
  rw [nodeAt?_append] at h
  obtain ⟨above, habove, -⟩ := Option.bind_eq_some_iff.mp h
  exact ⟨above, habove⟩

/-! ## All places -/

mutual

/-- The places of a tree, in pre-order. -/
def places : SourceNode → List Place
  | file _ entities => [] :: placesEach 0 entities
  | type _ _ _ members => [] :: placesEach 0 members
  | var .. | function .. => [[]]

/-- The places in some children of a node, the first of which is its child number `i`. -/
def placesEach : Nat → List SourceNode → List Place
  | _, [] => []
  | i, n :: ns => n.places.map (i :: ·) ++ placesEach (i + 1) ns

end

theorem places_eq (n : SourceNode) : n.places = [] :: placesEach 0 n.children := by
  cases n <;> simp [places, children, placesEach]

/-- A place in a list of nodes names one of them, and a place of that one. -/
theorem mem_placesEach {q : Place} {ns : List SourceNode} {i : Nat} : q ∈ placesEach i ns ↔
    ∃ (k : Nat) (c : SourceNode) (p : Place), ns[k]? = some c ∧ p ∈ c.places ∧
      q = (i + k) :: p := by
  induction ns generalizing i with
  | nil => simp [placesEach]
  | cons n ns ih =>
    rw [placesEach, List.mem_append, List.mem_map, ih]
    constructor
    · rintro (⟨p, hp, rfl⟩ | ⟨k, c, p, hc, hp, rfl⟩)
      · exact ⟨0, n, p, rfl, hp, rfl⟩
      · exact ⟨k + 1, c, p, hc, hp, by rw [Nat.add_right_comm, Nat.add_assoc]⟩
    · rintro ⟨k, c, p, hc, hp, rfl⟩
      cases k with
      | zero =>
        cases hc
        exact Or.inl ⟨p, hp, rfl⟩
      | succ k => exact Or.inr ⟨k, c, p, hc, hp, by rw [Nat.add_right_comm, Nat.add_assoc]⟩

/-- The places are those where there is a node. -/
theorem mem_places {n : SourceNode} {q : Place} :
    q ∈ n.places ↔ ∃ m, n.nodeAt? q = some m := by
  induction n using children_induction generalizing q with
  | step n ih =>
    rw [places_eq, List.mem_cons, mem_placesEach]
    cases q with
    | nil => exact iff_of_true (Or.inl rfl) ⟨n, rfl⟩
    | cons i p =>
      simp only [reduceCtorEq, false_or, Nat.zero_add, List.cons.injEq]
      show _ ↔ ∃ m, n.children[i]?.bind (nodeAt? · p) = some m
      constructor
      · rintro ⟨k, c, r, hc, hr, rfl, rfl⟩
        rw [hc]
        exact (ih c (List.mem_of_getElem? hc)).mp hr
      · rintro ⟨m, hm⟩
        obtain ⟨c, hc, hm⟩ := Option.bind_eq_some_iff.mp hm
        exact ⟨i, c, p, hc, (ih c (List.mem_of_getElem? hc)).mpr ⟨m, hm⟩, rfl, rfl⟩

/-- What stands above a place is a place. -/
theorem mem_places_of_append {n : SourceNode} {p q : Place} (h : p ++ q ∈ n.places) :
    p ∈ n.places := by
  obtain ⟨m, hm⟩ := mem_places.mp h
  exact mem_places.mpr (exists_nodeAt?_of_append hm)

/-- The places come in document order, no place twice. -/
theorem places_sorted (n : SourceNode) : n.places.Pairwise (· < ·) := by
  induction n using children_induction with
  | step n ih =>
    have heach : ∀ (ns : List SourceNode) (i : Nat), (∀ c ∈ ns, c.places.Pairwise (· < ·)) →
        (placesEach i ns).Pairwise (· < ·) := by
      intro ns
      induction ns with
      | nil => exact fun _ _ => List.Pairwise.nil
      | cons c cs ihs =>
        intro i hcs
        refine List.pairwise_append.mpr ⟨?_, ihs (i + 1) fun d hd =>
          hcs d (List.mem_cons_of_mem c hd), ?_⟩
        · rw [List.pairwise_map]
          exact (hcs c List.mem_cons_self).imp (List.cons_lt_cons_iff.mpr <| Or.inr ⟨rfl, ·⟩)
        · intro p hp q hq
          obtain ⟨p, -, rfl⟩ := List.mem_map.mp hp
          obtain ⟨k, -, q, -, -, rfl⟩ := mem_placesEach.mp hq
          exact List.cons_lt_cons_iff.mpr (Or.inl (by omega))
    rw [places_eq]
    refine List.pairwise_cons.mpr ⟨fun q hq => ?_, heach n.children 0 ih⟩
    obtain ⟨k, -, q, -, -, rfl⟩ := mem_placesEach.mp hq
    exact List.nil_lt_cons _ _

/-- There are as many places as nodes. -/
theorem length_places (n : SourceNode) : n.places.length = n.size := by
  induction n using children_induction with
  | step n ih =>
    have heach : ∀ (ns : List SourceNode) (i : Nat), (∀ c ∈ ns, c.places.length = c.size) →
        (placesEach i ns).length = sizeEach ns := by
      intro ns
      induction ns with
      | nil => exact fun _ _ => rfl
      | cons c cs ihs =>
        intro i hcs
        rw [placesEach, List.length_append, List.length_map, hcs c List.mem_cons_self,
          ihs (i + 1) fun d hd => hcs d (List.mem_cons_of_mem c hd), sizeEach]
    rw [places_eq, List.length_cons, heach n.children 0 ih, size_eq, Nat.add_comm]

/-- What is around a place comes before it. -/
theorem lt_append_singleton (p : Place) (i : Nat) : p < p ++ [i] := by
  induction p with
  | nil => exact List.nil_lt_cons _ _
  | cons j p ih => exact List.cons_lt_cons_iff.mpr (Or.inr ⟨rfl, ih⟩)

end SourceNode

end Cochange
