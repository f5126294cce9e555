import Cochange.SourceNode.Walk
import Cochange.Proofs.Walk.Places
import Mathlib.Data.List.Forall2

/-!
# Walking with a stack

A walk need not call itself: the nodes that are still to be listed stand on a stack, each with its
id. The one on top is listed, and its children, named from the last to the first, are put in its
place. What lies below is not touched before all that stood above is listed, so this is the
recursive walk, with its errors (`walkFrom_cons`).

Children are named all or none: with the last one that has no name the whole fails
(`qualify_eq_error_iff`).
-/

namespace Cochange

namespace SourceNode

variable {id : QualifiedId} {n : SourceNode}

/-! ## Names of children -/

/-- That each of some children of `id` can be named. -/
def AllNamed (id : QualifiedId) (ns : List SourceNode) : Prop :=
  ∀ c ∈ ns, ∃ x, id.child c.kind c.simpleId = .ok x

/-- That some children of `id` cannot be named, the last of these with the error `e`. -/
def LastFault (id : QualifiedId) (ns : List SourceNode) (e : IdError) : Prop :=
  ∃ (before : List SourceNode) (c : SourceNode) (behind : List SourceNode),
    ns = before ++ c :: behind ∧ id.child c.kind c.simpleId = .error e ∧ AllNamed id behind

/-- Naming the children succeeds when each of them can be named. -/
theorem qualify_eq_ok_iff {ns : List SourceNode} {ids : List QualifiedId} :
    qualify id ns = .ok ids ↔
      List.Forall₂ (fun c x => id.child c.kind c.simpleId = .ok x) ns ids := by
  induction ns generalizing ids with
  | nil => simp [qualify, eq_comm]
  | cons c cs ih =>
    rw [qualify, List.forall₂_cons_left_iff]
    constructor
    · intro h
      split at h
      next => cases h
      next rest hrest =>
        split at h
        next => cases h
        next x hx =>
          cases h
          exact ⟨x, rest, hx, ih.mp hrest, rfl⟩
    · rintro ⟨x, rest, hx, hrest, rfl⟩
      rw [ih.mpr hrest, hx]

/-- Children are named if each of them is. -/
theorem exists_qualify_iff {ns : List SourceNode} :
    (∃ ids, qualify id ns = .ok ids) ↔ AllNamed id ns := by
  unfold AllNamed
  simp only [qualify_eq_ok_iff]
  induction ns with
  | nil => simp
  | cons c cs ih =>
    rw [List.forall_mem_cons, ← ih]
    constructor
    · rintro ⟨ids, h⟩
      obtain ⟨x, rest, hx, hrest, -⟩ := List.forall₂_cons_left_iff.mp h
      exact ⟨⟨x, hx⟩, rest, hrest⟩
    · exact fun ⟨⟨x, hx⟩, rest, hrest⟩ => ⟨x :: rest, .cons hx hrest⟩

/-- Otherwise the error is that of the last one that has no name. -/
theorem qualify_eq_error_iff {ns : List SourceNode} {e : IdError} :
    qualify id ns = .error e ↔ LastFault id ns e := by
  induction ns with
  | nil => simp [qualify, LastFault]
  | cons n ns ih =>
    rw [qualify]
    constructor
    · intro h
      split at h
      next why hwhy =>
        cases h
        obtain ⟨before, c, behind, rfl, hc, hbehind⟩ := ih.mp hwhy
        exact ⟨n :: before, c, behind, rfl, hc, hbehind⟩
      next ids hids =>
        split at h
        next why hwhy =>
          cases h
          exact ⟨[], n, ns, rfl, hwhy, exists_qualify_iff.mp ⟨ids, hids⟩⟩
        next => cases h
    · rintro ⟨before, c, behind, hns, hc, hbehind⟩
      cases before with
      | nil =>
        cases hns
        obtain ⟨ids, hids⟩ := exists_qualify_iff.mpr hbehind
        rw [hids, hc]
      | cons m before =>
        cases hns
        rw [ih.mpr ⟨before, c, behind, rfl, hc, hbehind⟩]

/-! ## The stack -/

/-- Nodes with their ids, the one on top first. -/
abbrev Stack :=
  List (QualifiedId × SourceNode)

/-- Puts a child of `id` on a stack. -/
def push (id : QualifiedId) (stack : Stack) (c : SourceNode) : Except IdError Stack :=
  (id.child c.kind c.simpleId).map fun x => (x, c) :: stack

/-- Puts children of `id` on a stack, the last one first. -/
def pushEach (id : QualifiedId) (ns : List SourceNode) (stack : Stack) : Except IdError Stack :=
  ns.reverse.foldlM (push id) stack

/-- The children stand on the stack in document order. -/
theorem pushEach_eq (id : QualifiedId) (ns : List SourceNode) (stack : Stack) :
    pushEach id ns stack = (qualify id ns).map fun ids => ids.zip ns ++ stack := by
  unfold pushEach
  rw [List.foldlM_reverse]
  induction ns with
  | nil => rfl
  | cons n ns ih =>
    rw [List.foldrM_cons, ih, qualify]
    cases qualify id ns with
    | error e => rfl
    | ok ids =>
      show push id (ids.zip ns ++ stack) n = _
      unfold push
      cases id.child n.kind n.simpleId <;> rfl

/-- How many nodes are on a stack, with all that is below them. -/
def pending (stack : Stack) : Nat :=
  sizeEach (stack.map Prod.snd)

/-- One node fewer is pending when the children are in its place. -/
theorem pending_of_pushEach {stack next : Stack} (h : pushEach id n.children stack = .ok next) :
    pending next + 1 = pending ((id, n) :: stack) := by
  rw [pushEach_eq] at h
  cases hids : qualify id n.children with
  | error e =>
    rw [hids] at h
    cases h
  | ok ids =>
    rw [hids] at h
    cases h
    have hlength := (qualify_eq_ok_iff.mp hids).length_eq
    unfold pending
    rw [List.map_append, List.map_snd_zip (Nat.le_of_eq hlength), sizeEach_append,
      List.map_cons, sizeEach, size_eq]
    show sizeEach n.children + _ + 1 = 1 + sizeEach n.children + _
    omega

/-- Lists what is on the stack and all that is below it, behind what is already `listed`. -/
def walkFrom (stack : Stack) (listed : List (QualifiedId × SourceNode)) :
    Except IdError (List (QualifiedId × SourceNode)) :=
  match stack with
  | [] => .ok listed
  | (id, n) :: stack =>
    match hnext : pushEach id n.children stack with
    | .error e => .error e
    | .ok next =>
      have := pending_of_pushEach hnext
      walkFrom next (listed ++ [(id, n)])
termination_by pending stack

theorem walkFrom_nil (listed : List (QualifiedId × SourceNode)) :
    walkFrom [] listed = .ok listed := by
  rw [walkFrom]

/-- One step: the children of the node on top take its place. -/
theorem walkFrom_step (id : QualifiedId) (n : SourceNode) (stack : Stack)
    (listed : List (QualifiedId × SourceNode)) : walkFrom ((id, n) :: stack) listed =
      match qualify id n.children with
      | .error e => .error e
      | .ok ids => walkFrom (ids.zip n.children ++ stack) (listed ++ [(id, n)]) := by
  rw [walkFrom]
  have hpush := pushEach_eq id n.children stack
  cases hids : qualify id n.children with
  | error e =>
    rw [hids] at hpush
    split
    next hnext =>
      rw [hpush] at hnext
      cases hnext
      rfl
    next hnext =>
      rw [hpush] at hnext
      cases hnext
  | ok ids =>
    rw [hids] at hpush
    split
    next hnext =>
      rw [hpush] at hnext
      cases hnext
    next hnext =>
      rw [hpush] at hnext
      cases hnext
      rfl

/-- The stack loop lists the whole walk of the node on top before it goes on. -/
theorem walkFrom_cons (id : QualifiedId) (n : SourceNode) (stack : Stack)
    (listed : List (QualifiedId × SourceNode)) : walkFrom ((id, n) :: stack) listed =
      match n.walk id with
      | .error e => .error e
      | .ok nodes => walkFrom stack (listed ++ nodes) := by
  induction n using children_induction generalizing id stack listed with
  | step n ih =>
    have heach : ∀ (ns : List SourceNode) (ids : List QualifiedId)
        (listed : List (QualifiedId × SourceNode)), (∀ c ∈ ns, c ∈ n.children) →
        walkFrom (ids.zip ns ++ stack) listed =
          match walkEach ids ns with
          | .error e => .error e
          | .ok nodes => walkFrom stack (listed ++ nodes) := by
      intro ns
      induction ns with
      | nil =>
        intro ids listed _
        rw [List.zip_nil_right, List.nil_append, walkEach.eq_def]
        cases ids <;> exact congrArg _ (List.append_nil listed).symm
      | cons c cs ihs =>
        intro ids listed hcs
        cases ids with
        | nil =>
          rw [List.zip_nil_left, List.nil_append]
          exact congrArg _ (List.append_nil listed).symm
        | cons x xs =>
          have hrest := fun listed => ihs xs listed fun d hd => hcs d (List.mem_cons_of_mem c hd)
          rw [List.zip_cons_cons, List.cons_append, ih c (hcs c List.mem_cons_self), walkEach]
          cases c.walk x with
          | error e => rfl
          | ok here =>
            dsimp only
            rw [hrest]
            cases walkEach xs cs with
            | error e => rfl
            | ok rest => simp [Except.map]
    rw [walkFrom_step, walk_eq]
    cases qualify id n.children with
    | error e => rfl
    | ok ids =>
      dsimp only
      rw [heach n.children ids _ fun _ hc => hc]
      cases walkEach ids n.children with
      | error e => rfl
      | ok nodes => simp [Except.map]

/-- From a single node, the stack loop is the recursive walk. -/
theorem walkFrom_singleton (id : QualifiedId) (n : SourceNode) :
    walkFrom [(id, n)] [] = n.walk id := by
  rw [walkFrom_cons]
  cases n.walk id with
  | error e => rfl
  | ok nodes => exact (walkFrom_nil _).trans (by rw [List.nil_append])

end SourceNode

end Cochange
