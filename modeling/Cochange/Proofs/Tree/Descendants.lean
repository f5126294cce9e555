import Cochange.Proofs.Text.ByteOrder
import Cochange.Proofs.Tree.Gaps
import Mathlib.Data.List.Nodup
import Mathlib.Logic.Function.Iterate

/-!
# The list of what is below a node

A search lists a node and what is below it. It keeps the nodes still to be visited, the next one
first, and puts the children of a visited node before all others (`turn`). In a tree whose links
are right the search comes to an end, and the list it leaves is that of `descendants`
(`reaches_descendants`).

The list holds each node once, in pre-order. Which of two nodes comes first is told by their ids,
without the tree (`Precedes`). Main result: `links_and_descendants_exact`.
-/

namespace Cochange

namespace QualifiedId

variable {x y p c : QualifiedId}

/-- Whether `x` stands before `y` in pre-order: it is around `y`, or it is nested in a sibling
whose text comes before that of the sibling in which `y` is nested, byte by byte. -/
def Precedes (x y : QualifiedId) : Prop :=
  x ∈ y.ancestors ∨
    ∃ p a b : QualifiedId, a.parent? = some p ∧ b.parent? = some p ∧
      a.text.toUTF8.toList < b.text.toUTF8.toList ∧ x.IsNestedIn a ∧ y.IsNestedIn b

/-- What is nested in a child has the parent around it. -/
theorem mem_ancestors_of_child (hc : c.parent? = some p) (h : x.IsNestedIn c) :
    p ∈ x.ancestors := by
  have hp : c.IsNestedIn p := (isNestedIn_iff_of_parent? hc).mpr (Or.inr (Or.inl rfl))
  refine (h.trans hp).resolve_left fun he => ?_
  have hle := h.depth_le
  rw [depth_eq_of_parent? hc, he] at hle
  omega

theorem not_mem_ancestors_self (x : QualifiedId) : x ∉ x.ancestors := by
  intro h
  cases hp : x.parent? with
  | none =>
    rw [ancestors_of_parent?_eq_none hp] at h
    cases h
  | some p =>
    rw [ancestors_of_parent? hp] at h
    have hle : x.depth ≤ p.depth := IsNestedIn.depth_le (List.mem_cons.mp h)
    rw [depth_eq_of_parent? hp] at hle
    omega

theorem not_precedes_self (x : QualifiedId) : ¬x.Precedes x := by
  rintro (h | ⟨p, a, b, ha, hb, hlt, hxa, hxb⟩)
  · exact x.not_mem_ancestors_self h
  · -- the siblings are as deep as each other, so they are one
    have hdepth : a.depth = b.depth := by
      rw [depth_eq_of_parent? ha, depth_eq_of_parent? hb]
    rw [hxa.eq_of_depth_eq hxb hdepth] at hlt
    exact List.lt_irrefl _ hlt

instance : Std.Irrefl Precedes :=
  ⟨not_precedes_self⟩

end QualifiedId

namespace SourceTree

open QualifiedId (upTo Precedes)

variable {t : SourceTree} {id x p c : QualifiedId}

/-! ## The search -/

/-- A search under way: the nodes still to be visited, the next one first, and those listed. -/
abbrev Search :=
  List QualifiedId × List (QualifiedId × NodeKind)

/-- One turn of the search: the next node is listed, and its children are visited before all
others. An absent node is passed over. -/
def turn (t : SourceTree) : Search → Search
  | ([], listed) => ([], listed)
  | (id :: rest, listed) =>
    match t.get? id with
    | none => (rest, listed)
    | some kind => (t.childList id ++ rest, listed ++ [(id, kind)])

/-- Whether a search comes from one point to another. -/
def Reaches (t : SourceTree) (s s' : Search) : Prop :=
  ∃ n, t.turn^[n] s = s'

theorem Reaches.refl (s : Search) : t.Reaches s s :=
  ⟨0, rfl⟩

theorem Reaches.trans {s₁ s₂ s₃ : Search} (h₁ : t.Reaches s₁ s₂) (h₂ : t.Reaches s₂ s₃) :
    t.Reaches s₁ s₃ := by
  obtain ⟨n, hn⟩ := h₁
  obtain ⟨m, hm⟩ := h₂
  exact ⟨m + n, by rw [Function.iterate_add_apply, hn, hm]⟩

/-- One turn of the loop is reached. -/
theorem reaches_turn (s : Search) : t.Reaches s (t.turn s) :=
  ⟨1, rfl⟩

/-- One node after the other. -/
theorem reaches_flatMap {f : QualifiedId → List (QualifiedId × NodeKind)} (ids : List QualifiedId)
    (h : ∀ id ∈ ids, ∀ rest listed, t.Reaches (id :: rest, listed) (rest, listed ++ f id)) :
    ∀ rest listed, t.Reaches (ids ++ rest, listed) (rest, listed ++ ids.flatMap f) := by
  induction ids with
  | nil =>
    intro rest listed
    rw [List.flatMap_nil, List.append_nil]
    exact .refl _
  | cons id ids ih =>
    intro rest listed
    obtain ⟨hid, hids⟩ := List.forall_mem_cons.mp h
    rw [List.flatMap_cons, ← List.append_assoc]
    exact (hid (ids ++ rest) listed).trans (ih hids rest (listed ++ f id))

/-- An absent node has nothing listed, whether it is passed over or not even looked at. -/
theorem descendantsWithin_of_get?_eq_none (hid : t.get? id = none) (fuel : Nat) :
    t.descendantsWithin fuel id = [] := by
  cases fuel with
  | zero => rfl
  | succ fuel => rw [descendantsWithin, hid]

/-- An id that is not in the tree is passed over. -/
theorem reaches_of_get?_eq_none (hid : t.get? id = none) (fuel : Nat)
    (rest : List QualifiedId) (listed : List (QualifiedId × NodeKind)) :
    t.Reaches (id :: rest, listed) (rest, listed ++ t.descendantsWithin fuel id) := by
  have hturn : t.turn (id :: rest, listed) = (rest, listed) := by rw [turn, hid]
  rw [descendantsWithin_of_get?_eq_none hid, List.append_nil, ← hturn]
  exact reaches_turn _

/-- What is below the next node is listed before the search comes to the others. -/
theorem reaches_descendantsWithin (ht : t.Linked) {fuel : Nat} : ∀ {id : QualifiedId},
    (t.atDepth id.depth).card ≤ fuel → ∀ rest listed,
      t.Reaches (id :: rest, listed) (rest, listed ++ t.descendantsWithin fuel id) := by
  induction fuel with
  | zero =>
    intro id hfuel
    have habsent : t.contains id = false := Bool.eq_false_iff.mpr fun hid => by
      have hpos := card_atDepth_pos hid
      omega
    exact reaches_of_get?_eq_none (contains_eq_false_iff.mp habsent) 0
  | succ fuel ih =>
    intro id hfuel rest listed
    cases hk : t.get? id with
    | none => exact reaches_of_get?_eq_none hk _ rest listed
    | some k =>
      have hid : t.contains id = true := contains_iff.mpr ⟨k, hk⟩
      have hturn : t.turn (id :: rest, listed) = (t.childList id ++ rest, listed ++ [(id, k)]) := by
        rw [turn, hk]
      have hchildren := reaches_flatMap (t.childList id) (fun c hc => ih (by
        have hless := card_atDepth_child hid ((ht id c).mp hc).1
        omega)) rest (listed ++ [(id, k)])
      have hlist : t.descendantsWithin (fuel + 1) id =
          (id, k) :: (t.childList id).flatMap (t.descendantsWithin fuel) := by
        rw [descendantsWithin, hk]
      refine (reaches_turn _).trans ?_
      rw [hturn, hlist]
      rw [List.append_assoc] at hchildren
      exact hchildren

/-- The search for what is below a node comes to an end, with the list of the descendants. -/
theorem reaches_descendants (ht : t.Linked) (id : QualifiedId) :
    t.Reaches ([id], []) ([], t.descendants id) :=
  reaches_descendantsWithin ht (t.card_atDepth_le id.depth) [] []

/-! ## The order -/

/-- Children are listed by the bytes of their ids. -/
theorem sorted_childList (t : SourceTree) (p : QualifiedId) :
    (t.childList p).Pairwise fun a b => a.text.toUTF8.toList < b.text.toUTF8.toList := by
  unfold childList
  split
  next => exact List.Pairwise.nil
  next s _ => exact s.ordered_toList.imp QualifiedId.compare_eq_lt_iff.mp

/-- The traversal lists ids in pre-order, so none twice. -/
theorem precedes_descendantsWithin (ht : t.Linked) {fuel : Nat} : ∀ {id : QualifiedId},
    (t.atDepth id.depth).card ≤ fuel →
      ((t.descendantsWithin fuel id).map (·.1)).Pairwise Precedes := by
  induction fuel with
  | zero => exact fun _ => List.Pairwise.nil
  | succ fuel ih =>
    intro id hfuel
    rw [descendantsWithin]
    cases hk : t.get? id with
    | none => exact List.Pairwise.nil
    | some k =>
      have hid : t.contains id = true := contains_iff.mpr ⟨k, hk⟩
      have hfewer : ∀ c ∈ t.childList id, (t.atDepth c.depth).card ≤ fuel := by
        intro c hc
        have hless := card_atDepth_child hid ((ht id c).mp hc).1
        omega
      -- what is listed for a child is nested in this child
      have hnested : ∀ c ∈ t.childList id, ∀ x ∈ (t.descendantsWithin fuel c).map (·.1),
          x.IsNestedIn c := fun c hc x hx =>
        (below_iff_upTo.mp ((mem_descendantsWithin ht (hfewer c hc)).mp hx)).2.1
      rw [List.map_cons, List.map_flatMap, List.pairwise_cons]
      constructor
      · intro x hx
        obtain ⟨c, hc, hxc⟩ := List.mem_flatMap.mp hx
        exact Or.inl (QualifiedId.mem_ancestors_of_child ((ht id c).mp hc).1 (hnested c hc x hxc))
      · refine List.pairwise_flatMap.mpr ⟨fun c hc => ih (hfewer c hc), ?_⟩
        refine (t.sorted_childList id).imp_of_mem fun {a b} ha hb hlt x hx y hy => ?_
        exact Or.inr ⟨id, a, b, ((ht id a).mp ha).1, ((ht id b).mp hb).1, hlt,
          hnested a ha x hx, hnested b hb y hy⟩

/-- The list of the descendants is in pre-order, with siblings in the order of their bytes. -/
theorem precedes_descendants (ht : t.Linked) (id : QualifiedId) :
    ((t.descendants id).map (·.1)).Pairwise Precedes :=
  precedes_descendantsWithin ht (t.card_atDepth_le id.depth)

/-- No id comes before itself, so none is listed twice. -/
theorem nodup_descendants (ht : t.Linked) (id : QualifiedId) :
    ((t.descendants id).map (·.1)).Nodup :=
  (precedes_descendants ht id).nodup

/-! ## The members -/

/-- The traversal lists nodes with the kinds the tree has for them. -/
theorem get?_of_mem_descendantsWithin {fuel : Nat} {k : NodeKind} : ∀ {id : QualifiedId},
    (x, k) ∈ t.descendantsWithin fuel id → t.get? x = some k := by
  induction fuel with
  | zero => exact fun h => absurd h List.not_mem_nil
  | succ fuel ih =>
    intro id h
    rw [descendantsWithin] at h
    cases hk : t.get? id with
    | none =>
      rw [hk] at h
      cases h
    | some k' =>
      rw [hk] at h
      rcases List.mem_cons.mp h with heq | h
      · cases heq
        exact hk
      · obtain ⟨c, -, hc⟩ := List.mem_flatMap.mp h
        exact ih hc

/-- The descendants are the nodes below, with their kinds. -/
theorem mem_descendants_iff (ht : t.Linked) {k : NodeKind} :
    (x, k) ∈ t.descendants id ↔ t.get? x = some k ∧ t.Below id x := by
  rw [← mem_descendants ht, List.mem_map]
  constructor
  · exact fun h => ⟨get?_of_mem_descendantsWithin h, (x, k), h, rfl⟩
  · rintro ⟨hk, ⟨x', k'⟩, hmem, rfl⟩
    have hk' := get?_of_mem_descendantsWithin hmem
    rw [hk, Option.some.injEq] at hk'
    exact hk' ▸ hmem

/-- The kinds in the list are those that the nodes were given last. -/
theorem mem_descendants_built_iff (ops : List Operation) {k : NodeKind} :
    (x, k) ∈ (built ops).descendants id ↔
      latestKind ops x = some k ∧ (built ops).Below id x := by
  rw [mem_descendants_iff (linked_built ops)]
  refine and_congr_left fun hx => ⟨get?_built ops, fun hk => ?_⟩
  obtain ⟨k', hk'⟩ := contains_iff.mp hx.contains
  rw [hk', ← hk, get?_built ops hk']

theorem descendants_eq_nil_iff (ht : t.Linked) :
    t.descendants id = [] ↔ t.contains id = false := by
  constructor
  · intro h
    by_contra hid
    have hmem := (mem_descendants ht).mpr (.self (Bool.not_eq_false _ ▸ hid))
    rw [h] at hmem
    cases hmem
  · intro h
    exact descendantsWithin_of_get?_eq_none (contains_eq_false_iff.mp h) t.size

/-- Whatever operations build a tree, links are kept for exactly those ids that have a present
child, and they lead to the present children. The search for what is below an id comes to an end.
It lists, in pre-order and each once, the nodes from which present nodes lead up to this id, with
the kinds they were given last. -/
theorem links_and_descendants_exact (ops : List Operation) :
    (∀ p : QualifiedId,
      (∀ c, (∃ s, (built ops).children[p]? = some s ∧ c ∈ s) ↔
        c.parent? = some p ∧ (built ops).contains c = true) ∧
      ((built ops).children[p]? = none ↔
        ∀ c, ¬(c.parent? = some p ∧ (built ops).contains c = true))) ∧
    ∀ id : QualifiedId,
      (∃ turns, (built ops).turn^[turns] ([id], []) = ([], (built ops).descendants id)) ∧
      (((built ops).descendants id).map (·.1)).Nodup ∧
      (((built ops).descendants id).map (·.1)).Pairwise Precedes ∧
      (∀ x k, (x, k) ∈ (built ops).descendants id ↔
        latestKind ops x = some k ∧ (built ops).contains id = true ∧ x.IsNestedIn id ∧
          ∀ y ∈ x.upTo id, (built ops).contains y = true) ∧
      ((built ops).descendants id = [] ↔ (built ops).contains id = false) := by
  have ht := linked_built ops
  constructor
  · intro p
    have hmem : ∀ c, (∃ s, (built ops).children[p]? = some s ∧ c ∈ s) ↔
        c.parent? = some p ∧ (built ops).contains c = true := fun c =>
      mem_childList.symm.trans (ht p c)
    refine ⟨hmem, ?_⟩
    simp only [← hmem]
    constructor
    · rintro hnone c ⟨s, hs, -⟩
      rw [hnone] at hs
      cases hs
    · intro hno
      cases hs : (built ops).children[p]? with
      | none => rfl
      | some s =>
        obtain ⟨c, hc⟩ := tidy_built ops p s hs
        exact absurd ⟨s, hs, hc⟩ (hno c)
  · intro id
    refine ⟨reaches_descendants ht id, nodup_descendants ht id, precedes_descendants ht id, ?_,
      descendants_eq_nil_iff ht⟩
    intro x k
    rw [mem_descendants_built_iff, below_iff_upTo]

end SourceTree

end Cochange
