import Cochange.Context.Basic
import Cochange.Graph.Basic

/-!
# Graphs of a context

Some entities of a context as a graph: a node for each of them, an edge for each recorded pair of
them. The graphs of the source files take the tracked entities of one file each.
-/

namespace Cochange.Context

variable {ω : Type}

/-- The edges of an entity to larger ones among `ids`. -/
def edgesFrom (c : Context ω) (ids : Std.ExtTreeSet QualifiedId) (id : QualifiedId) :
    List (Edge ω) :=
  (c.neighbors id).filterMap fun n =>
    if (compare id n.1).isLT && ids.contains n.1 then
      some { source := id.text, target := n.1.text, revisions := c.jointChangeCount id n.1,
             coupling := n.2 }
    else none

/-- The graph of some entities. -/
def graphOf (c : Context ω) (label : String) (ids : Std.ExtTreeSet QualifiedId) : Graph ω where
  label
  nodes := ids.toList.map fun id => { label := id.text, revisions := c.changeCount id }
  edges := ids.toList.flatMap (c.edgesFrom ids)

/-- The graphs of all source files with tracked entities, in the order of their paths. -/
def fileGraphs (c : Context ω) : List (Graph ω) :=
  c.idsByFile.toList.map fun f => c.graphOf f.1 f.2

end Cochange.Context
