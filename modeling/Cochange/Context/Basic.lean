import Std.Data.ExtTreeSet
import Cochange.SparseMatrix
import Cochange.Weight

/-!
# Temporal contexts

What a history tells about its entities: how often each was changed, how often two of them were
changed together, and how strongly they are coupled. Only tracked entities have a change count;
only some pairs are recorded, each of them in both orientations.

A context can be filtered: entities and pairs that were changed too seldom, and pairs that are
coupled too weakly, are left out.
-/

namespace Cochange

/-- Change counts, joint change counts and couplings of entities. -/
structure Context (ω : Type) where
  interner : Interner
  changes : Std.ExtTreeMap Handle Nat
  joint : SparseMatrix Nat
  coupling : SparseMatrix ω

/-- Two coupled entities, the one with the smaller id first. -/
structure CoupledPair (ω : Type) where
  entityA : QualifiedId
  entityB : QualifiedId
  jointChanges : Nat
  coupling : ω
  changesA : Nat
  changesB : Nat

namespace Context

variable {ω : Type}

/-- How many entities are tracked. -/
def size (c : Context ω) : Nat :=
  c.changes.size

/-- Whether no entity is tracked. -/
def isEmpty (c : Context ω) : Bool :=
  c.changes.isEmpty

/-- The tracked entities. -/
def entityIds (c : Context ω) : Std.ExtTreeSet QualifiedId :=
  Std.ExtTreeSet.ofList (c.changes.keys.filterMap c.interner.resolve?)

/-- The handle of an entity, if it is tracked. -/
def tracked? (c : Context ω) (id : QualifiedId) : Option Handle :=
  (c.interner.get? id).filter (c.changes.contains ·)

/-- Whether an entity is tracked. -/
def contains (c : Context ω) (id : QualifiedId) : Bool :=
  (c.tracked? id).isSome

/-- How many revisions changed an entity, zero if it is not tracked. -/
def changeCount (c : Context ω) (id : QualifiedId) : Nat :=
  match c.tracked? id with
  | none => 0
  | some h => c.changes[h]?.getD 0

/-- How many revisions changed two entities together, zero if the pair is not recorded. -/
def jointChangeCount (c : Context ω) (a b : QualifiedId) : Nat :=
  match c.interner.get? a, c.interner.get? b with
  | some x, some y => (c.joint.get? x y).getD 0
  | _, _ => 0

/-- The entities with a recorded coupling to a tracked one, in order, and their couplings. -/
def neighbors (c : Context ω) (id : QualifiedId) : List (QualifiedId × ω) :=
  match c.tracked? id with
  | none => []
  | some h =>
    let found := (c.coupling.row h).filterMap fun r =>
      (c.interner.resolve? r.1).map fun other => (other, r.2)
    found.mergeSort fun x y => (compare x.1 y.1).isLE

/-- All recorded couplings, in both orientations. -/
def cells (c : Context ω) : List (QualifiedId × QualifiedId × ω) :=
  c.coupling.cells.filterMap fun cell =>
    match c.interner.resolve? cell.1, c.interner.resolve? cell.2.1 with
    | some a, some b => some (a, b, cell.2.2)
    | _, _ => none

/-- The recorded pairs, the smaller id first. -/
def pairs (c : Context ω) : List (QualifiedId × QualifiedId) :=
  c.cells.filterMap fun cell =>
    if (compare cell.1 cell.2.1).isLT then some (cell.1, cell.2.1) else none

/-- The tracked entities of each source file. -/
def idsByFile (c : Context ω) : Std.ExtTreeMap String (Std.ExtTreeSet QualifiedId) :=
  c.entityIds.toList.foldl
    (fun files id => files.alter id.sourcePath fun s => some ((s.getD ∅).insert id)) ∅

variable [Weight ω]

/-- The coupling of two entities, zero if the pair is not recorded. -/
def couplingOf (c : Context ω) (a b : QualifiedId) : ω :=
  match c.interner.get? a, c.interner.get? b with
  | some x, some y => (c.coupling.get? x y).getD Weight.zero
  | _, _ => Weight.zero

/-- A recorded pair with its counts. -/
def pairOf (c : Context ω) (p : QualifiedId × QualifiedId) : CoupledPair ω where
  entityA := p.1
  entityB := p.2
  jointChanges := c.jointChangeCount p.1 p.2
  coupling := c.couplingOf p.1 p.2
  changesA := c.changeCount p.1
  changesB := c.changeCount p.2

/-- The order of pairs: by coupling and then by joint changes, both from large to small, and then
by ids. -/
def pairOrder (p q : CoupledPair ω) : Ordering :=
  (Weight.order q.coupling p.coupling).then <|
    (compare q.jointChanges p.jointChanges).then <|
      (compare p.entityA q.entityA).then (compare p.entityB q.entityB)

/-- The recorded pairs in order, at most `limit` of them. -/
def coupledPairs (c : Context ω) (limit : Option Nat) : List (CoupledPair ω) :=
  let sorted := (c.pairs.map c.pairOf).mergeSort fun p q => (pairOrder p q).isLE
  match limit with
  | none => sorted
  | some n => sorted.take n

/-- Whether a recorded pair stays, given the entities that stay. -/
def keepsPair (c : Context ω) (kept : Std.ExtTreeMap Handle Nat) (minRevisions : Nat)
    (minCoupling : ω) (x y : Handle) (coupling : ω) : Bool :=
  minRevisions ≤ (c.joint.get? x y).getD 0 && Weight.le minCoupling coupling &&
    kept.contains x && kept.contains y

/-- The entities with at least `minRevisions` changes, and of their pairs those with at least as
many joint changes and at least the coupling `minCoupling`. -/
def filter (c : Context ω) (minRevisions : Nat) (minCoupling : ω) : Context ω :=
  let kept := c.changes.filter fun _ n => minRevisions ≤ n
  { interner := c.interner
    changes := kept
    joint := c.coupling.filterMap fun x y v =>
      if c.keepsPair kept minRevisions minCoupling x y v then
        some ((c.joint.get? x y).getD 0) else none
    coupling := c.coupling.filterMap fun x y v =>
      if c.keepsPair kept minRevisions minCoupling x y v then some v else none }

end Context

end Cochange
