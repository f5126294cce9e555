import Cochange.Weight
import Std.Data.ExtTreeMap
import Std.Data.ExtTreeSet

/-!
# Coupling graphs

The nodes of a coupling graph are entities with the number of their revisions; its edges join
entities that were changed together and carry the number of these revisions and the coupling.
An edge may join a node to itself or name a label that is no node. Of such edges neither degrees
nor connected components take notice.
-/

namespace Cochange

/-- A set of labels. -/
abbrev LabelSet :=
  Std.ExtTreeSet String

/-- The largest number of revisions an entity or a coupling can have. -/
def maxRevisions : Nat := UInt32.size - 1

/-- An entity of a coupling graph. -/
structure Node where
  label : String
  revisions : Nat
  deriving DecidableEq, Repr

/-- A coupling between two entities. -/
structure Edge (ω : Type) where
  source : String
  target : String
  revisions : Nat
  coupling : ω
  deriving DecidableEq, Repr

/-- A coupling graph. -/
structure Graph (ω : Type) where
  label : String
  nodes : List Node
  edges : List (Edge ω)
  deriving DecidableEq, Repr

/-- Some nodes of a graph and how densely they are coupled. -/
structure Subgraph (ω : Type) where
  nodes : LabelSet
  density : ω

namespace Subgraph

/-- How many nodes there are. -/
def size {ω : Type} (s : Subgraph ω) : Nat :=
  s.nodes.size

end Subgraph

namespace Graph

variable {ω : Type}

/-- The labels of all nodes. -/
def labels (g : Graph ω) : LabelSet :=
  Std.ExtTreeSet.ofList (g.nodes.map (·.label))

/-- The nodes that satisfy a condition and the edges between them. -/
def filterNodes (g : Graph ω) (keep : String → Bool) : Graph ω :=
  let nodes := g.nodes.filter fun n => keep n.label
  let kept : LabelSet := Std.ExtTreeSet.ofList (nodes.map (·.label))
  { label := g.label
    nodes
    edges := g.edges.filter fun e => kept.contains e.source && kept.contains e.target }

/-- The nodes with one of some labels and the edges between them. -/
def intersect (g : Graph ω) (ls : LabelSet) : Graph ω :=
  g.filterNodes (ls.contains ·)

/-- The nodes with none of some labels and the edges between them. -/
def without (g : Graph ω) (ls : LabelSet) : Graph ω :=
  g.filterNodes fun l => !ls.contains l

variable [Weight ω]

/-- The degrees with one more edge. -/
def addEdge (degrees : Std.ExtTreeMap String ω) (e : Edge ω) : Std.ExtTreeMap String ω :=
  if e.source ≠ e.target ∧ degrees.contains e.source ∧ degrees.contains e.target then
    let raise (d : Option ω) : Option ω := d.map (Weight.add · e.coupling)
    (degrees.alter e.source raise).alter e.target raise
  else degrees

/-- The degree of every node: the sum of the couplings of its edges to other nodes. -/
def degrees (g : Graph ω) : Std.ExtTreeMap String ω :=
  g.edges.foldl addEdge
    (g.nodes.foldl (fun d n => d.insert n.label Weight.zero) ∅)

end Graph

end Cochange
