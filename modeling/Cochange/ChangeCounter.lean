import Cochange.Context.Basic
import Cochange.Language
import Cochange.SourceTree

/-!
# Counting changes

A history is gone through once, from the first revision to the last. On the way the counter keeps
the source tree, how often each entity was changed and how often two entities were changed in one
revision. A revision first acts on the tree; what it leaves edited is counted at its end. A
revision that touches too many source files is a bulk change: its entities are counted, its pairs
are not.

Entities below a removed node lose their counts and pairs at once, and what the same revision had
edited of them is no longer edited.

A revision fails when a node it adds cannot be named. What its earlier edits did stays done, but
nothing is counted.
-/

namespace Cochange

/-- The state of the count. -/
structure ChangeCounter where
  languages : Languages
  maxChangeSet : Nat
  tree : SourceTree := .empty
  interner : Interner := .empty
  changes : Std.ExtTreeMap Handle Nat := ∅
  joint : SparseMatrix Nat := .empty
  revisions : Nat := 0
  bulkRevisions : Nat := 0

/-- What a revision has edited so far. -/
abbrev EditedSet :=
  Std.ExtTreeSet Handle

namespace ChangeCounter

/-- The count before the first revision. -/
def start (languages : Languages) (maxChangeSet : Nat) : ChangeCounter :=
  { languages, maxChangeSet }

/-- An entity is edited. -/
def edit (s : ChangeCounter × EditedSet) (id : QualifiedId) : ChangeCounter × EditedSet :=
  let (h, interner) := s.1.interner.intern id
  ({ s.1 with interner }, s.2.insert h)

/-- An entity loses its counts and pairs, and its place among what is edited. -/
def forget (s : ChangeCounter × EditedSet) (h : Handle) : ChangeCounter × EditedSet :=
  ({ s.1 with changes := s.1.changes.erase h, joint := s.1.joint.removeEntity h }, s.2.erase h)

/-- The entities counted or edited that are within a node. -/
def countedWithin (s : ChangeCounter × EditedSet) (outer : QualifiedId) : List Handle :=
  (s.1.changes.keys ++ s.2.toList).filter fun h =>
    match s.1.interner.resolve? h with
    | none => false
    | some id => id.isWithin outer

/-- One edit of a revision. An entity whose kind is known not to be tracked is not edited. -/
def visit (s : ChangeCounter × EditedSet) : Edit → Except IdError (ChangeCounter × EditedSet)
  | .addNode id node =>
    match s.1.tree.add id node with
    | .error e => .error e
    | .ok (tree, added) =>
      let tracked := added.filter fun a => s.1.languages.isTrackable a.1 a.2
      .ok ((tracked.map (·.1)).foldl edit ({ s.1 with tree }, s.2))
  | .removeNode id =>
    let s := ({ s.1 with tree := s.1.tree.remove id }, s.2)
    .ok ((countedWithin s id).foldl forget s)
  | .editEntity id =>
    match s.1.tree.get? id with
    | some kind => .ok (if s.1.languages.isTrackable id kind then edit s id else s)
    | none => .ok (edit s id)

/-- The edits of a revision up to the first that fails. -/
def visitAll (s : ChangeCounter × EditedSet) :
    List Edit → (ChangeCounter × EditedSet) × Option IdError
  | [] => (s, none)
  | e :: es =>
    match visit s e with
    | .error why => (s, some why)
    | .ok s => visitAll s es

/-- All unordered pairs of a list, the earlier one first. -/
def pairsOf : List Handle → List (Handle × Handle)
  | [] => []
  | x :: xs => xs.map (fun y => (x, y)) ++ pairsOf xs

/-- One more joint change of two entities. -/
def countPair (m : SparseMatrix Nat) (p : Handle × Handle) : SparseMatrix Nat :=
  (m.modify p.1 p.2 fun n => n.getD 0 + 1).modify p.2 p.1 fun n => n.getD 0 + 1

/-- What is edited at the end of a revision that touches `files` source files is counted. -/
def count (c : ChangeCounter) (edited : EditedSet) (files : Nat) : ChangeCounter :=
  let changes := edited.toList.foldl
    (fun m h => m.alter h fun n => some (n.getD 0 + 1)) c.changes
  let c := { c with changes, revisions := c.revisions + 1 }
  if c.maxChangeSet < files then { c with bulkRevisions := c.bulkRevisions + 1 }
  else { c with joint := (pairsOf edited.toList).foldl countPair c.joint }

/-- The count after a revision, and the error if the revision fails. -/
def process (c : ChangeCounter) (r : Revision) : ChangeCounter × Option IdError :=
  match visitAll (c, ∅) r.edits with
  | ((c, _), some why) => (c, some why)
  | ((c, edited), none) => (c.count edited r.changeSet.size, none)

/-- The count after all revisions, unless one of them fails. -/
def processAll (c : ChangeCounter) : List Revision → Except IdError ChangeCounter
  | [] => .ok c
  | r :: rs =>
    match c.process r with
    | (_, some why) => .error why
    | (c, none) => c.processAll rs

/-- How often an entity was changed. -/
def changeCount (c : ChangeCounter) (id : QualifiedId) : Nat :=
  match c.interner.get? id with
  | none => 0
  | some h => c.changes[h]?.getD 0

/-- How often two entities were changed together. -/
def jointCount (c : ChangeCounter) (a b : QualifiedId) : Nat :=
  match c.interner.get? a, c.interner.get? b with
  | some x, some y => (c.joint.get? x y).getD 0
  | _, _ => 0

variable {ω : Type} [Weight ω]

/-- The coupling of two entities: their joint changes, relative to the changes of either. -/
def couplingOf (c : ChangeCounter) (x y : Handle) (joint : Nat) : ω :=
  match c.changes[x]?, c.changes[y]? with
  | some cx, some cy =>
    let total := cx + cy - joint
    if total = 0 then Weight.zero else Weight.ratio joint total
  | _, _ => Weight.zero

/-- The context of everything counted. -/
def context (c : ChangeCounter) : Context ω where
  interner := c.interner
  changes := c.changes
  joint := c.joint
  coupling := c.joint.filterMap fun x y n => some (c.couplingOf x y n)

/-- The context with thresholds applied. -/
def finish (c : ChangeCounter) (minRevisions : Nat) (minCoupling : ω) : Context ω :=
  c.context.filter minRevisions minCoupling

end ChangeCounter

end Cochange
