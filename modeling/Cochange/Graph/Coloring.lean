import Cochange.Graph.Basic

/-!
# Colored graphs

Groups of nodes are shown by colors: the nodes of the first group have color 1, those of the
second color 2, and so on; a node in no group has color 0, one in several groups the color of
the last. Labels of a group that are no nodes are passed over.
-/

namespace Cochange

/-- A graph with a color for every label. -/
structure ColoredGraph (ω : Type) where
  graph : Graph ω
  colors : Std.ExtTreeMap String Nat

namespace ColoredGraph

variable {ω : Type}

/-- The graph with its nodes colored by groups. -/
def ofGroups (g : Graph ω) (groups : List (List String)) : ColoredGraph ω where
  graph := g
  colors :=
    groups.zipIdx.foldl
      (fun colors group =>
        group.1.foldl
          (fun colors label => if colors.contains label then colors.insert label (group.2 + 1) else colors)
          colors)
      (g.nodes.foldl (fun colors n => colors.insert n.label 0) ∅)

/-- The color of a label, if it is in the graph. -/
def color? (c : ColoredGraph ω) (label : String) : Option Nat :=
  c.colors[label]?

end ColoredGraph

end Cochange
