import Cochange.Blob.Peel
import Cochange.Graph.Components
import Cochange.Blob.SearchError

/-!
# Blobs and anti-blobs

A blob is a dense set of nodes. Blobs are searched in each connected component on its own: the
densest set found by peeling is a blob if it is dense enough; it is taken out and what is left is
searched again. Graphs that are too large are not searched, each of their nodes is given by itself.

The anti-blob is the set of all nodes of small degree, if there are enough of them. Its density
counts every edge that touches it once.
-/

namespace Cochange

/-- How many nodes a graph may have to be searched for blobs. -/
def maxSearchedNodes : Nat := 300

namespace Graph

variable {ω : Type} [Weight ω]

/-- The number of each label in the order of the labels. -/
def numbers (g : Graph ω) : Std.ExtTreeMap String Nat :=
  Std.ExtTreeMap.ofList g.labels.toList.zipIdx

/-- The link for an edge between two different nodes, given by the numbers of their labels. -/
def linkOf? (numbers : Std.ExtTreeMap String Nat) (e : Edge ω) : Option (Link ω) :=
  match numbers[e.source]?, numbers[e.target]? with
  | some a, some b => if a = b then none else some ⟨a, b, e.coupling⟩
  | _, _ => none

/-- The links between nodes, given by the numbers of their labels. -/
def links (g : Graph ω) (numbers : Std.ExtTreeMap String Nat) : List (Link ω) :=
  g.edges.filterMap (linkOf? numbers)

/-- For each of `count` nodes its place among some members, if it is one of them. -/
def places (count : Nat) (members : List Nat) : Array (Option Nat) :=
  members.zipIdx.foldl (fun a m => a.setIfInBounds m.1 (some m.2)) (Array.replicate count none)

/-- The links between some members, which are numbered anew in their order. -/
def linksWithin (count : Nat) (members : List Nat) (links : List (Link ω)) : List (Link ω) :=
  let ps := places count members
  links.filterMap (·.renumber? fun u => ps[u]?.join)

/-- The densest set of members found by peeling, and its density. -/
def densestWithin (count : Nat) (links : List (Link ω)) (members : List Nat) : List Nat × ω :=
  let adj := Adjacency.ofLinks members.length (linksWithin count members links)
  let (density, dropped) := Peel.densest adj
  (members.zipIdx.filterMap fun m => if m.2 ∈ dropped then none else some m.1, density)

/-- The sets of members that are dense enough, each searched in what the earlier ones leave. At
most `fuel` are taken. -/
def extract (count : Nat) (links : List (Link ω)) (minDensity : ω) :
    (fuel : Nat) → List Nat → List (List Nat × ω)
  | 0, _ => []
  | fuel + 1, members =>
    if members.isEmpty then []
    else
      let found := densestWithin count links members
      if Weight.lt found.2 minDensity then []
      else
        found ::
          extract count links minDensity fuel (members.filter fun m => m ∉ found.1)

/-- The numbers of the labels of a component, in their order. -/
def membersOf (numbers : Std.ExtTreeMap String Nat) (component : LabelSet) : List Nat :=
  component.toList.filterMap fun l => numbers[l]?

/-- The blobs in a component. -/
def blobsWithin (labels : Array String) (numbers : Std.ExtTreeMap String Nat)
    (links : List (Link ω)) (minDensity : ω) (component : LabelSet) : List (Subgraph ω) :=
  let members := membersOf numbers component
  (extract labels.size links minDensity members.length members).map fun found =>
    { nodes := Std.ExtTreeSet.ofList (found.1.filterMap fun m => labels[m]?)
      density := found.2 }

/-- The blobs of a graph, component by component. -/
def findBlobs (g : Graph ω) (minDensity : ω) : Except (SearchError ω) (List (Subgraph ω)) :=
  if !Weight.isNonnegative minDensity then .error (.badMinDensity minDensity)
  else if maxSearchedNodes < g.nodes.length then
    .ok (g.nodes.map fun n => { nodes := Std.ExtTreeSet.ofList [n.label], density := Weight.zero })
  else
    let numbers := g.numbers
    let links := g.links numbers
    .ok (g.components.flatMap (blobsWithin g.labels.toList.toArray numbers links minDensity))

/-- The anti-blob of a graph, if it has one. -/
def findAntiBlob (g : Graph ω) (maxCoupling : ω) (minSize : Nat) :
    Except (SearchError ω) (Option (Subgraph ω)) :=
  if !Weight.isNonnegative maxCoupling then .error (.badMaxCoupling maxCoupling)
  else if minSize = 0 then .error .zeroMinSize
  else
    let nodes : LabelSet :=
      Std.ExtTreeSet.ofList <| g.degrees.toList.filterMap fun d =>
        if Weight.le d.2 maxCoupling then some d.1 else none
    if nodes.size < minSize then .ok none
    else
      let touching := g.edges.filter fun e =>
        e.source ≠ e.target && (nodes.contains e.source || nodes.contains e.target)
      let weight := Weight.sum (touching.map (·.coupling))
      .ok (some { nodes, density := Weight.divNat weight nodes.size })

end Graph

end Cochange
