import Cochange.Proofs.Walk.Stack
import Cochange.Proofs.Ids.Children

/-!
# What a walk lists

A walk goes through the places of a node in document order. At each one it has the node that is
there, under the name that the way down gives (`entryAt?`), and either all its children can be
named, or the walk ends with the fault that is there (`faultAt?`). So the outcome is told place by
place (`walk_eq_of_places`): the first fault, if there is one, and all entries otherwise.

A place has an entry as soon as there is no fault on the way to it (`exists_entryAt?_of_faultless`).

Main result: `walk_preorder`.
-/

namespace Cochange

namespace SourceNode

variable {id : QualifiedId} {n : SourceNode}

/-! ## Entries and faults -/

/-- A child of `id` with its own id, if it can be named. -/
def named? (id : QualifiedId) (c : SourceNode) : Option (QualifiedId × SourceNode) :=
  match id.child c.kind c.simpleId with
  | .ok x => some (x, c)
  | .error _ => none

theorem named?_eq_some_iff {c : SourceNode} {m : QualifiedId × SourceNode} :
    named? id c = some m ↔ c = m.2 ∧ id.child m.2.kind m.2.simpleId = .ok m.1 := by
  unfold named?
  constructor
  · intro h
    split at h
    next x hx =>
      cases h
      exact ⟨rfl, hx⟩
    next => cases h
  · rintro ⟨rfl, hx⟩
    rw [hx]

/-- The node at a place with the id that it gets on the way there, if the place is there and each
node on the way can be named. -/
def entryAt? (id : QualifiedId) (n : SourceNode) : Place → Option (QualifiedId × SourceNode)
  | [] => some (id, n)
  | i :: p => (n.children[i]?.bind (named? id)).bind fun m => entryAt? m.1 m.2 p

/-- The error of naming the children of a node. -/
def fault? (id : QualifiedId) (n : SourceNode) : Option IdError :=
  match qualify id n.children with
  | .error e => some e
  | .ok _ => none

/-- The fault of the node at a place. -/
def faultAt? (id : QualifiedId) (n : SourceNode) (p : Place) : Option IdError :=
  (entryAt? id n p).bind fun m => fault? m.1 m.2

theorem fault?_eq_none_iff : fault? id n = none ↔ AllNamed id n.children := by
  rw [← exists_qualify_iff, fault?]
  cases qualify id n.children <;> simp

/-- The fault of a node is that of its last child that cannot be named. -/
theorem fault?_eq_some_iff {e : IdError} :
    fault? id n = some e ↔ LastFault id n.children e := by
  rw [← qualify_eq_error_iff, fault?]
  cases qualify id n.children <;> simp

/-- A place below a place gets its id from the entry there. -/
theorem entryAt?_append (id : QualifiedId) (n : SourceNode) (p q : Place) :
    entryAt? id n (p ++ q) = (entryAt? id n p).bind fun m => entryAt? m.1 m.2 q := by
  induction p generalizing id n with
  | nil => rfl
  | cons i p ih =>
    exact (Option.bind_congr fun m _ => ih m.1 m.2).trans (Option.bind_assoc ..).symm

/-- What is at a place below another one is a child of what is there. -/
theorem entryAt?_concat {p : Place} {i : Nat} {m : QualifiedId × SourceNode} :
    entryAt? id n (p ++ [i]) = some m ↔ ∃ above, entryAt? id n p = some above ∧
      above.2.children[i]? = some m.2 ∧ above.1.child m.2.kind m.2.simpleId = .ok m.1 := by
  rw [entryAt?_append, Option.bind_eq_some_iff]
  refine exists_congr fun above => and_congr_right fun _ => ?_
  show (above.2.children[i]?.bind (named? above.1)).bind some = some m ↔ _
  rw [Option.bind_fun_some, Option.bind_eq_some_iff]
  simp only [named?_eq_some_iff]
  constructor
  · rintro ⟨c, hc, rfl, hx⟩
    exact ⟨hc, hx⟩
  · exact fun ⟨hc, hx⟩ => ⟨m.2, hc, rfl, hx⟩

/-- The node of an entry is the one at the place. -/
theorem nodeAt?_of_entryAt? {p : Place} {m : QualifiedId × SourceNode}
    (h : entryAt? id n p = some m) : n.nodeAt? p = some m.2 := by
  induction p generalizing id n with
  | nil =>
    cases h
    rfl
  | cons i p ih =>
    obtain ⟨next, hnext, h⟩ := Option.bind_eq_some_iff.mp h
    obtain ⟨c, hc, hnext⟩ := Option.bind_eq_some_iff.mp hnext
    obtain ⟨rfl, -⟩ := named?_eq_some_iff.mp hnext
    show n.children[i]?.bind _ = _
    rw [hc]
    exact ih h

/-- A place has an entry if there is no fault above it. -/
theorem exists_entryAt?_of_faultless {q : Place} (hq : q ∈ n.places)
    (h : ∀ p ∈ n.places, p < q → faultAt? id n p = none) : ∃ m, entryAt? id n q = some m := by
  induction q using List.reverseRecOn with
  | nil => exact ⟨(id, n), rfl⟩
  | append_singleton q i ih =>
    have hlt := lt_append_singleton q i
    have habove := mem_places_of_append hq
    obtain ⟨m, hm⟩ := ih habove fun p hp hpq => h p hp (List.lt_trans hpq hlt)
    have hnone := h q habove hlt
    rw [faultAt?, hm] at hnone
    obtain ⟨d, hd⟩ := mem_places.mp hq
    rw [nodeAt?_append, nodeAt?_of_entryAt? hm, Option.bind_some] at hd
    obtain ⟨c, hc, -⟩ := Option.bind_eq_some_iff.mp hd
    obtain ⟨x, hx⟩ := fault?_eq_none_iff.mp hnone c (List.mem_of_getElem? hc)
    exact ⟨(x, c), entryAt?_concat.mpr ⟨m, hm, hc, hx⟩⟩

/-! ## The outcome, place by place -/

/-- What a walk makes of some places. -/
def outcome (id : QualifiedId) (n : SourceNode) (ps : List Place) :
    Except IdError (List (QualifiedId × SourceNode)) :=
  match ps.findSome? (faultAt? id n) with
  | some e => .error e
  | none => .ok (ps.filterMap (entryAt? id n))

/-- Places are gone through in order, and the first fault ends it. -/
theorem outcome_append (id : QualifiedId) (n : SourceNode) (ps qs : List Place) :
    outcome id n (ps ++ qs) =
      match outcome id n ps with
      | .error e => .error e
      | .ok here => (outcome id n qs).map (here ++ ·) := by
  unfold outcome
  rw [List.findSome?_append, List.filterMap_append]
  cases ps.findSome? (faultAt? id n) with
  | some e => rfl
  | none =>
    rw [Option.none_or]
    cases qs.findSome? (faultAt? id n) <;> rfl

/-- The places within a child are told by the child alone. -/
theorem outcome_map_cons {i : Nat} {c : SourceNode} {x : QualifiedId}
    (hc : n.children[i]? = some c) (hx : id.child c.kind c.simpleId = .ok x) (ps : List Place) :
    outcome id n (ps.map (i :: ·)) = outcome x c ps := by
  have hentry : entryAt? id n ∘ (i :: ·) = entryAt? x c := by
    funext p
    show (n.children[i]?.bind (named? id)).bind _ = _
    have hnamed : named? id c = some (x, c) := named?_eq_some_iff.mpr ⟨rfl, hx⟩
    rw [hc, Option.bind_some, hnamed]
    rfl
  have hfault : faultAt? id n ∘ (i :: ·) = faultAt? x c := by
    funext p
    exact congrArg (Option.bind · _) (congrFun hentry p)
  unfold outcome
  rw [List.findSome?_map, List.filterMap_map, hentry, hfault]

/-- A walk fails with the first fault of all places, and lists their entries if there is none. -/
theorem walk_eq_of_places (id : QualifiedId) (n : SourceNode) :
    n.walk id = outcome id n n.places := by
  induction n using children_induction generalizing id with
  | step n ih =>
    -- the children that are left, from number `i` on, and their ids
    have heach : ∀ (cs : List SourceNode) (ids : List QualifiedId) (i : Nat),
        n.children.drop i = cs → qualify id cs = .ok ids →
        walkEach ids cs = outcome id n (placesEach i cs) := by
      intro cs
      induction cs with
      | nil =>
        intro ids i _ hids
        cases hids
        rfl
      | cons c cs ihs =>
        intro ids i hcs hids
        obtain ⟨x, xs, hx, hxs, rfl⟩ := List.forall₂_cons_left_iff.mp (qualify_eq_ok_iff.mp hids)
        have hc : n.children[i]? = some c := by
          rw [← List.head?_drop, hcs]
          rfl
        have hrest : n.children.drop (i + 1) = cs := by
          rw [← List.tail_drop, hcs]
          rfl
        have hhere : outcome id n (c.places.map (i :: ·)) = c.walk x :=
          (outcome_map_cons hc hx c.places).trans (ih c (List.mem_of_getElem? hc) x).symm
        have hbehind := ihs xs (i + 1) hrest (qualify_eq_ok_iff.mpr hxs)
        rw [walkEach, placesEach, outcome_append, hhere]
        cases c.walk x with
        | error e => rfl
        | ok here => exact congrArg (Except.map (here ++ ·)) hbehind
    have hroot : outcome id n [[]] =
        match qualify id n.children with
        | .error e => .error e
        | .ok _ => .ok [(id, n)] := by
      unfold outcome
      rw [List.findSome?_singleton]
      show (match fault? id n with | some e => _ | none => _) = _
      unfold fault?
      cases qualify id n.children <;> rfl
    rw [walk_eq, places_eq, ← List.singleton_append, outcome_append, hroot]
    cases hids : qualify id n.children with
    | error e => rfl
    | ok ids =>
      dsimp only
      rw [heach n.children ids 0 List.drop_zero hids]
      rfl

/-! ## Walks that succeed -/

/-- There is no fault exactly if all places have entries: a child without name would be a place
without entry. -/
theorem faultless_iff : (∀ p ∈ n.places, faultAt? id n p = none) ↔
    ∀ p ∈ n.places, ∃ m, entryAt? id n p = some m := by
  constructor
  · exact fun h q hq => exists_entryAt?_of_faultless hq fun p hp _ => h p hp
  · intro h p hp
    obtain ⟨m, hm⟩ := h p hp
    rw [faultAt?, hm, Option.bind_some, fault?_eq_none_iff]
    intro c hc
    obtain ⟨i, hi⟩ := List.mem_iff_getElem?.mp hc
    have hplace : p ++ [i] ∈ n.places := by
      refine mem_places.mpr ⟨c, ?_⟩
      rw [nodeAt?_append, nodeAt?_of_entryAt? hm, Option.bind_some]
      show m.2.children[i]?.bind some = some c
      rw [hi, Option.bind_some]
    obtain ⟨d, hd⟩ := h (p ++ [i]) hplace
    obtain ⟨above, habove, hdi, hx⟩ := entryAt?_concat.mp hd
    obtain rfl : above = m := Option.some.inj (habove.symm.trans hm)
    obtain rfl : d.2 = c := Option.some.inj (hdi.symm.trans hi)
    exact ⟨d.1, hx⟩

/-- A walk succeeds when no place has a fault, and lists the entries of the places. -/
theorem walk_eq_ok_iff {nodes : List (QualifiedId × SourceNode)} : n.walk id = .ok nodes ↔
    (∀ p ∈ n.places, faultAt? id n p = none) ∧ n.places.filterMap (entryAt? id n) = nodes := by
  rw [walk_eq_of_places, outcome, ← List.findSome?_eq_none_iff]
  cases n.places.findSome? (faultAt? id n) <;> simp

/-- A walk fails with the fault of the first place that has one. -/
theorem walk_eq_error_iff {e : IdError} :
    n.walk id = .error e ↔ n.places.findSome? (faultAt? id n) = some e := by
  rw [walk_eq_of_places, outcome]
  cases n.places.findSome? (faultAt? id n) <;> simp

/-- The nodes of a tree whose root is `id`, in document order: one for each place, the root first,
and every other one under the name that it has as a child of the one around it. -/
structure Lists (id : QualifiedId) (n : SourceNode) (nodes : List (QualifiedId × SourceNode)) :
    Prop where
  places : n.places.map (entryAt? id n) = nodes.map some
  length : nodes.length = n.size
  root : nodes.head? = some (id, n)
  below : ∀ p i m, entryAt? id n (p ++ [i]) = some m → ∃ above ∈ nodes,
    entryAt? id n p = some above ∧ above.2.children[i]? = some m.2 ∧
      above.1.child m.2.kind m.2.simpleId = .ok m.1 ∧ m.1.parent? = some above.1

theorem mem_walk_iff {nodes : List (QualifiedId × SourceNode)} (h : n.walk id = .ok nodes)
    {m : QualifiedId × SourceNode} : m ∈ nodes ↔ ∃ p, entryAt? id n p = some m := by
  obtain ⟨-, rfl⟩ := walk_eq_ok_iff.mp h
  rw [List.mem_filterMap]
  constructor
  · exact fun ⟨p, _, hp⟩ => ⟨p, hp⟩
  · exact fun ⟨p, hp⟩ => ⟨p, mem_places.mpr ⟨_, nodeAt?_of_entryAt? hp⟩, hp⟩

theorem lists_of_walk {nodes : List (QualifiedId × SourceNode)} (h : n.walk id = .ok nodes) :
    Lists id n nodes := by
  obtain ⟨hfaultless, hnodes⟩ := walk_eq_ok_iff.mp h
  have hsome := faultless_iff.mp hfaultless
  have hplaces : n.places.map (entryAt? id n) = nodes.map some := by
    rw [← hnodes, List.map_filterMap_some_eq_filter_map_isSome, List.filter_eq_self.mpr]
    intro entry hentry
    obtain ⟨p, hp, rfl⟩ := List.mem_map.mp hentry
    obtain ⟨m, hm⟩ := hsome p hp
    rw [hm]
    rfl
  refine ⟨hplaces, ?_, ?_, fun p i m hm => ?_⟩
  · have hlength := congrArg List.length hplaces
    rwa [List.length_map, List.length_map, length_places, eq_comm] at hlength
  · obtain ⟨rest, rfl⟩ := exists_of_walk h
    rfl
  · obtain ⟨above, habove, hi, hx⟩ := entryAt?_concat.mp hm
    exact ⟨above, (mem_walk_iff h).mpr ⟨p, habove⟩, habove, hi, hx,
      QualifiedId.parent?_of_child hx⟩

/-! ## Walks that fail -/

/-- The error `e` is that of the last child without name of the node `m` at a place `p`, and all
children of the nodes before it can be named. -/
structure FailsFirst (id : QualifiedId) (n : SourceNode) (e : IdError) (p : Place)
    (m : QualifiedId × SourceNode) : Prop where
  entry : p ∈ n.places ∧ entryAt? id n p = some m
  last : LastFault m.1 m.2.children e
  first : ∀ q ∈ n.places, q < p → ∃ m', entryAt? id n q = some m' ∧ AllNamed m'.1 m'.2.children

/-- In a sorted list, what is smaller than an item stands before it. -/
theorem mem_front_of_lt {front back : List Place} {p q : Place}
    (hsorted : (front ++ p :: back).Pairwise (· < ·)) (hq : q ∈ front ++ p :: back) (hlt : q < p) :
    q ∈ front := by
  rcases List.mem_append.mp hq with hq | hq
  · exact hq
  · rcases List.mem_cons.mp hq with rfl | hq
    · exact absurd hlt (List.lt_irrefl q)
    · have hbehind := (List.pairwise_cons.mp (List.pairwise_append.mp hsorted).2.1).1 q hq
      exact absurd hlt (List.lt_asymm hbehind)

theorem failsFirst_of_walk {e : IdError} (h : n.walk id = .error e) :
    ∃ p m, FailsFirst id n e p m := by
  obtain ⟨front, p, back, hsplit, hp, hfront⟩ :=
    List.findSome?_eq_some_iff.mp (walk_eq_error_iff.mp h)
  obtain ⟨m, hm, hfault⟩ := Option.bind_eq_some_iff.mp hp
  have hbefore : ∀ q ∈ n.places, q < p → faultAt? id n q = none := by
    intro q hq hlt
    have hsorted := places_sorted n
    rw [hsplit] at hq hsorted
    exact hfront q (mem_front_of_lt hsorted hq hlt)
  refine ⟨p, m, ⟨by simp [hsplit], hm⟩, fault?_eq_some_iff.mp hfault, fun q hq hlt => ?_⟩
  obtain ⟨m', hm'⟩ := exists_entryAt?_of_faultless hq fun r hr hrq =>
    hbefore r hr (List.lt_trans hrq hlt)
  have hnone := hbefore q hq hlt
  rw [faultAt?, hm', Option.bind_some] at hnone
  exact ⟨m', hm', fault?_eq_none_iff.mp hnone⟩

/-! ## Pre-order -/

/-- Walking with a stack is the recursive walk, in document order over all places of the tree. It
succeeds exactly if each node can be named as a child of the one around it, and lists all nodes with
these names; otherwise it fails with the last fault of the first node that has one. -/
theorem walk_preorder (id : QualifiedId) (n : SourceNode) :
    walkFrom [(id, n)] [] = n.walk id ∧
    (n.places.Pairwise (· < ·) ∧ ∀ p, p ∈ n.places ↔ ∃ m, n.nodeAt? p = some m) ∧
    ((∃ nodes, n.walk id = .ok nodes) ↔ ∀ p ∈ n.places, ∃ m, entryAt? id n p = some m) ∧
    match n.walk id with
    | .ok nodes => Lists id n nodes
    | .error e => ∃ p m, FailsFirst id n e p m := by
  refine ⟨walkFrom_singleton id n, ⟨places_sorted n, fun p => mem_places⟩, ?_, ?_⟩
  · rw [← faultless_iff]
    simp only [walk_eq_ok_iff]
    exact ⟨fun ⟨_, h, _⟩ => h, fun h => ⟨_, h, rfl⟩⟩
  · cases h : n.walk id with
    | ok nodes => exact lists_of_walk h
    | error e => exact failsFirst_of_walk h

/-- A type in which two nodes have children without name: `B` has two of them, and so has `E`. -/
def faultyType : SourceNode :=
  ofMembers "A"
    [ofMembers "B" [ofName "x", file "b.rs" [], ofMembers "C:D" [], ofSignature "f()"],
      ofMembers "E" [ofName "g#h", ofName " "]]

/-- A type in which there are two types that look alike. -/
def repeatedType : SourceNode :=
  ofMembers "A" [ofMembers "B" [ofSignature "f()"], ofMembers "B" [ofSignature "f()"]]

/-- The walk of the first one fails at `B`, which comes before `E`, with the last of its faults. The
other one is listed, with two nodes under each id within `B`. -/
theorem walk_preorder_faulty :
    walkFrom [(SourceTree.sampleType, faultyType)] [] = .error (.malformed "a.rs:A:B:C:D") ∧
    (∃ p m, FailsFirst SourceTree.sampleType faultyType (.malformed "a.rs:A:B:C:D") p m) ∧
    ∃ nodes, Lists SourceTree.sampleType repeatedType nodes := by
  have hfaulty : faultyType.walk SourceTree.sampleType =
      .error (.malformed "a.rs:A:B:C:D") := by rfl
  obtain ⟨nodes, hrepeated⟩ : ∃ nodes, repeatedType.walk SourceTree.sampleType = .ok nodes :=
    ⟨_, rfl⟩
  obtain ⟨hloop, -, -, hfails⟩ := walk_preorder SourceTree.sampleType faultyType
  obtain ⟨-, -, -, hlists⟩ := walk_preorder SourceTree.sampleType repeatedType
  rw [hfaulty] at hfails
  rw [hrepeated] at hlists
  exact ⟨hloop.trans hfaulty, hfails, nodes, hlists⟩

end SourceNode

end Cochange
