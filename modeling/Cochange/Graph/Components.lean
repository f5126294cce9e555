import Cochange.Graph.Basic

/-!
# Connected components

Nodes are merged along the edges into classes. Each class has a representative; of two classes
that are merged, the one of higher rank gives the representative, and the first one if the ranks
are equal, which then rises by one.

Nodes are told apart by their positions. If a label is repeated, edges belong to its last node
and each of the others is a component of its own.
-/

namespace Cochange

/-- The numbers `0, 1, …, n - 1` in classes: for each its representative, and for each
representative a rank. -/
structure Partition where
  root : Array Nat
  rank : Array Nat

namespace Partition

/-- Every number in a class of its own. -/
def discrete (n : Nat) : Partition where
  root := Array.range n
  rank := Array.replicate n 0

/-- The representative of the class of a number. -/
def rootOf (p : Partition) (x : Nat) : Nat :=
  p.root[x]?.getD x

/-- The class of `loser` put into that of `winner`, both representatives. -/
def absorb (p : Partition) (winner loser : Nat) : Partition :=
  { p with root := p.root.map fun r => if r = loser then winner else r }

/-- The classes of two numbers merged. -/
def union (p : Partition) (x y : Nat) : Partition :=
  let a := p.rootOf x
  let b := p.rootOf y
  if a = b then p
  else
    match compare (p.rank[a]?.getD 0) (p.rank[b]?.getD 0) with
    | .lt => p.absorb b a
    | .gt => p.absorb a b
    | .eq => { p.absorb a b with rank := p.rank.modify a (· + 1) }

/-- The classes merged along a list of pairs. -/
def unionAll (p : Partition) (pairs : List (Nat × Nat)) : Partition :=
  pairs.foldl (fun p xy => p.union xy.1 xy.2) p

end Partition

namespace Graph

variable {ω : Type}

/-- The position of the last node with each label. -/
def lastPositions (g : Graph ω) : Std.ExtTreeMap String Nat :=
  g.nodes.zipIdx.foldl (fun m n => m.insert n.1.label n.2) ∅

/-- For each edge between two nodes the positions of these. -/
def joinedPositions (g : Graph ω) : List (Nat × Nat) :=
  let at? := g.lastPositions
  g.edges.filterMap fun e =>
    match at?[e.source]?, at?[e.target]? with
    | some a, some b => some (a, b)
    | _, _ => none

/-- The positions of the nodes, merged along the edges. -/
def partition (g : Graph ω) : Partition :=
  Partition.unionAll (.discrete g.nodes.length) g.joinedPositions

/-- The labels of the nodes in each class, by its representative. -/
def classes (g : Graph ω) : Std.ExtTreeMap Nat LabelSet :=
  let p := g.partition
  g.nodes.zipIdx.foldl
    (fun m n => m.alter (p.rootOf n.2) fun s => some ((s.getD ∅).insert n.1.label)) ∅

/-- Whether one label set comes before another or level with it: by their smallest labels. -/
def firstLabelLe (a b : LabelSet) : Bool :=
  match a.min?, b.min? with
  | none, _ => true
  | some _, none => false
  | some x, some y => x ≤ y

/-- The connected components, in the order of their smallest labels. -/
def components (g : Graph ω) : List LabelSet :=
  (g.classes.toList.map (·.2)).mergeSort firstLabelLe

end Graph

end Cochange
