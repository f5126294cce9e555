import Cochange.Decode
import Cochange.Graph.Coloring

/-!
# Graphs as JSON

Graphs, subgraphs and colored graphs are written as objects with their fields in the order of
declaration, label sets in order. A graph can be read back; all its fields must be there.
-/

namespace Cochange

open Decode (Shape Result)

namespace Node

/-- The fields of a node. -/
def shape : Shape Node where
  fields := ["label", "revisions"]
  required := ["label", "revisions"]
  start := { label := "", revisions := 0 }
  set := fun s name v =>
    match name with
    | "label" => (Decode.text v).map fun t => { s with label := t }
    | _ => (Decode.nat maxRevisions v).map fun n => { s with revisions := n }

/-- The object that stands for a node. -/
def toJson (n : Node) : Json :=
  .ofFields [("label", .ofString n.label), ("revisions", .ofNat n.revisions)]

end Node

namespace Edge

/-- The fields of an edge. -/
def shape : Shape (Edge Float) where
  fields := ["source", "target", "revisions", "coupling"]
  required := ["source", "target", "revisions", "coupling"]
  start := { source := "", target := "", revisions := 0, coupling := 0 }
  set := fun s name v =>
    match name with
    | "source" => (Decode.text v).map fun t => { s with source := t }
    | "target" => (Decode.text v).map fun t => { s with target := t }
    | "revisions" => (Decode.nat maxRevisions v).map fun n => { s with revisions := n }
    | _ => (Decode.float v).map fun x => { s with coupling := x }

/-- The object that stands for an edge. -/
def toJson (e : Edge Float) : Json :=
  .ofFields [("source", .ofString e.source), ("target", .ofString e.target),
    ("revisions", .ofNat e.revisions), ("coupling", .ofFloat e.coupling)]

end Edge

namespace Graph

/-- The fields of a graph. -/
def shape : Shape (Graph Float) where
  fields := ["label", "nodes", "edges"]
  required := ["label", "nodes", "edges"]
  start := { label := "", nodes := [], edges := [] }
  set := fun s name v =>
    match name with
    | "label" => (Decode.text v).map fun t => { s with label := t }
    | "nodes" => (Decode.list (Decode.record Node.shape) v).map fun ns => { s with nodes := ns }
    | _ => (Decode.list (Decode.record Edge.shape) v).map fun es => { s with edges := es }

/-- The graph an object stands for. -/
def decode (v : Json) : Result (Graph Float) :=
  Decode.record shape v

/-- The object that stands for a graph. -/
def toJson (g : Graph Float) : Json :=
  .ofFields [("label", .ofString g.label), ("nodes", .array (g.nodes.map (·.toJson))),
    ("edges", .array (g.edges.map (·.toJson)))]

end Graph

/-- The object that stands for a subgraph. -/
def Subgraph.toJson (s : Subgraph Float) : Json :=
  .ofFields [("nodes", .ofStrings s.nodes.toList), ("density", .ofFloat s.density)]

/-- The object that stands for a colored graph. -/
def ColoredGraph.toJson (c : ColoredGraph Float) : Json :=
  .ofFields [("graph", c.graph.toJson),
    ("colors", .ofFields (c.colors.toList.map fun l => (l.1, .ofNat l.2)))]

end Cochange
