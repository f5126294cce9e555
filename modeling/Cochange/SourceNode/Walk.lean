import Cochange.SourceNode.Basic
import Cochange.QualifiedId.Parse

/-!
# Walking a source node

A walk names every node below a given one and lists them in pre-order. The children of a node
are named from the last to the first, all of them before any of them is entered. So when a name
is impossible, the walk fails with the last bad child of the first node that has one.
-/

namespace Cochange.SourceNode

/-- The ids of some children of `id`, or the error of the last one that cannot be named. -/
def qualify (id : QualifiedId) : List SourceNode → Except IdError (List QualifiedId)
  | [] => .ok []
  | n :: ns =>
    match qualify id ns with
    | .error e => .error e
    | .ok ids =>
      match id.child n.kind n.simpleId with
      | .error e => .error e
      | .ok c => .ok (c :: ids)

mutual

/-- A node named `id` and all nodes below it, each with its id, in pre-order. -/
def walk (id : QualifiedId) : SourceNode → Except IdError (List (QualifiedId × SourceNode))
  | file path entities =>
    match qualify id entities with
    | .error e => .error e
    | .ok ids => (walkEach ids entities).map ((id, file path entities) :: ·)
  | type name supertypes modifiers members =>
    match qualify id members with
    | .error e => .error e
    | .ok ids => (walkEach ids members).map ((id, type name supertypes modifiers members) :: ·)
  | var name modifiers initializer => .ok [(id, var name modifiers initializer)]
  | function signature parameters modifiers body =>
    .ok [(id, function signature parameters modifiers body)]

/-- The walks of some nodes with these ids, one behind the other. -/
def walkEach : List QualifiedId → List SourceNode →
    Except IdError (List (QualifiedId × SourceNode))
  | id :: ids, n :: ns =>
    match walk id n with
    | .error e => .error e
    | .ok here => (walkEach ids ns).map (here ++ ·)
  | _, _ => .ok []

end

/-- The walk of any node, in terms of its children. -/
theorem walk_eq (id : QualifiedId) (n : SourceNode) :
    n.walk id =
      match qualify id n.children with
      | .error e => .error e
      | .ok ids => (walkEach ids n.children).map ((id, n) :: ·) := by
  cases n <;> simp [walk, children, qualify, walkEach, Except.map]

end Cochange.SourceNode
