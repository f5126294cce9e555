import Cochange.Revision.Basic
import Cochange.SourceNode.Walk
import Std.Data.ExtTreeMap

/-!
# The running source tree

The nodes that are present at some point of a history, with their kinds and the links from each
node to those directly below it. A node may be added before the node around it, or without it:
the link is kept all the same, so the tree may have gaps.

* `get?_remove`: exactly the nodes that are listed as removed are gone.
-/

namespace Cochange

/-- The present nodes and the links between them. -/
structure SourceTree where
  kinds : Std.ExtTreeMap QualifiedId NodeKind := ∅
  children : Std.ExtTreeMap QualifiedId (Std.ExtTreeSet QualifiedId) := ∅

namespace SourceTree

/-- The tree without nodes. -/
def empty : SourceTree :=
  {}

/-- How many nodes are present. -/
def size (t : SourceTree) : Nat :=
  t.kinds.size

/-- Whether no node is present. -/
def isEmpty (t : SourceTree) : Bool :=
  t.kinds.isEmpty

/-- The kind of a node, if it is present. -/
def get? (t : SourceTree) (id : QualifiedId) : Option NodeKind :=
  t.kinds[id]?

/-- Whether a node is present. -/
def contains (t : SourceTree) (id : QualifiedId) : Bool :=
  t.kinds.contains id

/-- The nodes linked directly below a node, in order. -/
def childList (t : SourceTree) (id : QualifiedId) : List QualifiedId :=
  match t.children[id]? with
  | none => []
  | some s => s.toList

/-- A node and those below it to a depth of `fuel`, in pre-order. A node that is absent hides
what is below it. -/
def descendantsWithin (t : SourceTree) : Nat → QualifiedId → List (QualifiedId × NodeKind)
  | 0, _ => []
  | fuel + 1, id =>
    match t.get? id with
    | none => []
    | some k => (id, k) :: (t.childList id).flatMap (t.descendantsWithin fuel)

/-- A node and all those below it, in pre-order; nothing if it is absent. No chain of nodes is
longer than there are nodes. -/
def descendants (t : SourceTree) (id : QualifiedId) : List (QualifiedId × NodeKind) :=
  t.descendantsWithin t.size id

/-- The tree with a link from the node around `id` to `id`. -/
def link (t : SourceTree) (id : QualifiedId) : SourceTree :=
  match id.parent? with
  | none => t
  | some p => { t with children := t.children.alter p fun s => some ((s.getD ∅).insert id) }

/-- The tree without the link to `id`. The node around it keeps no empty set of links. -/
def unlink (t : SourceTree) (id : QualifiedId) : SourceTree :=
  match id.parent? with
  | none => t
  | some p =>
    { t with
      children := t.children.alter p fun s =>
        s.bind fun s => if (s.erase id).isEmpty then none else some (s.erase id) }

/-- The tree with one more node, or another kind for it. -/
def insertNode (t : SourceTree) (id : QualifiedId) (kind : NodeKind) : SourceTree :=
  let t := t.link id
  { t with kinds := t.kinds.insert id kind }

/-- The tree without a node and without the links below it. -/
def eraseNode (t : SourceTree) (id : QualifiedId) : SourceTree :=
  { kinds := t.kinds.erase id, children := t.children.erase id }

/-- The tree without a node and all those below it. -/
def remove (t : SourceTree) (id : QualifiedId) : SourceTree :=
  if t.contains id then
    ((t.descendants id).foldl (fun t d => t.eraseNode d.1) t).unlink id
  else t

/-- The nodes that `remove` takes out, in pre-order. -/
def removed (t : SourceTree) (id : QualifiedId) : List (QualifiedId × NodeKind) :=
  if t.contains id then t.descendants id else []

/-- The tree with a node and all below it, in place of what stood under the same id, and the
nodes added, in pre-order. If some node cannot be named nothing is added. -/
def add (t : SourceTree) (id : QualifiedId) (node : SourceNode) :
    Except IdError (SourceTree × List (QualifiedId × NodeKind)) :=
  match node.walk id with
  | .error e => .error e
  | .ok walked =>
    let added := walked.map fun w => (w.1, w.2.kind)
    .ok (added.foldl (fun t a => t.insertNode a.1 a.2) (t.remove id), added)

/-- The tree after an edit. Changing an entity's contents does not change the tree. -/
def apply (t : SourceTree) : Edit → Except IdError SourceTree
  | .addNode id node => (t.add id node).map (·.1)
  | .removeNode id => .ok (t.remove id)
  | .editEntity _ => .ok t

/-- The paths of the present source files, in order. -/
def sourcePaths (t : SourceTree) : List String :=
  t.kinds.toList.filterMap fun n => if n.2 = .file then some n.1.text else none

/-! ## Which nodes are present after an operation -/

theorem get?_link (t : SourceTree) (id x : QualifiedId) : (t.link id).get? x = t.get? x := by
  unfold link
  split <;> rfl

theorem get?_unlink (t : SourceTree) (id x : QualifiedId) : (t.unlink id).get? x = t.get? x := by
  unfold unlink
  split <;> rfl

/-- A node that is put in has its kind, all others keep theirs. -/
theorem get?_insertNode (t : SourceTree) (id : QualifiedId) (k : NodeKind) (x : QualifiedId) :
    (t.insertNode id k).get? x = if x = id then some k else t.get? x := by
  by_cases hx : x = id
  · subst hx; simp [insertNode, get?]
  · have := t.get?_link id x
    simp_all [insertNode, get?, Std.ExtTreeMap.getElem?_insert, Ne.symm hx]

/-- A node that is taken out has no kind, all others keep theirs. -/
theorem get?_eraseNode (t : SourceTree) (id x : QualifiedId) :
    (t.eraseNode id).get? x = if x = id then none else t.get? x := by
  by_cases hx : x = id
  · subst hx; simp [eraseNode, get?]
  · simp [eraseNode, get?, Std.ExtTreeMap.getElem?_erase, hx, Ne.symm hx]

/-- Taking out several nodes leaves the kinds of all others. -/
theorem get?_foldl_eraseNode (ds : List (QualifiedId × NodeKind)) (t : SourceTree)
    (x : QualifiedId) :
    (ds.foldl (fun t d => t.eraseNode d.1) t).get? x =
      if x ∈ ds.map (·.1) then none else t.get? x := by
  induction ds generalizing t with
  | nil => simp
  | cons d ds ih =>
    rw [List.foldl_cons, ih, get?_eraseNode]
    by_cases hx : x = d.1 <;> simp only [List.map_cons, List.mem_cons, hx, true_or, false_or,
      ite_self, if_true, if_false]

/-- Exactly the nodes that are listed as removed are gone. -/
theorem get?_remove (t : SourceTree) (id x : QualifiedId) :
    (t.remove id).get? x = if x ∈ (t.removed id).map (·.1) then none else t.get? x := by
  unfold remove removed
  split
  · rw [get?_unlink, get?_foldl_eraseNode]
  · simp

end SourceTree

end Cochange
