import Cochange.Graph.Basic
import Cochange.MinHeap

/-!
# Peeling a graph

A search for a dense set of nodes. The density of a set is the sum of the degrees within it,
divided by its size. Starting with all members, the one of least degree is taken away, and again
of what is left, until nothing is; the densest set on the way is the answer, the larger one of
two that are equally dense.

Degrees are not computed anew: when a member is taken away, its neighbours' degrees and twice the
coupling in the sum of all degrees are lowered.
-/

namespace Cochange

/-- An edge between two different nodes, given by their numbers. -/
structure Link (ω : Type) where
  source : Nat
  target : Nat
  coupling : ω

/-- A link with other numbers for its ends, if both have one. -/
def Link.renumber? {ω : Type} (l : Link ω) (number? : Nat → Option Nat) : Option (Link ω) :=
  match number? l.source, number? l.target with
  | some a, some b => some ⟨a, b, l.coupling⟩
  | _, _ => none

/-- For each member the other ends of its links and their couplings. -/
abbrev Adjacency (ω : Type) :=
  Array (List (Nat × ω))

namespace Adjacency

variable {ω : Type}

/-- The neighbours of each of `size` members, in the order of the links. -/
def ofLinks (size : Nat) (links : List (Link ω)) : Adjacency ω :=
  links.foldr
    (fun l adj =>
      (adj.modify l.source ((l.target, l.coupling) :: ·)).modify l.target
        ((l.source, l.coupling) :: ·))
    (Array.replicate size [])

variable [Weight ω]

/-- The degrees of all members. -/
def degrees (adj : Adjacency ω) : Array ω :=
  adj.map fun ns => Weight.sum (ns.map (·.2))

end Adjacency

/-- A stage of the peeling: what is left with its degrees, and the sum of these. -/
structure Peel (ω : Type) where
  heap : MinHeap ω
  degreeSum : ω

namespace Peel

variable {ω : Type} [Weight ω]

/-- A stage after a neighbour of what is left was taken away. -/
def lower (p : Peel ω) (link : Nat × ω) : Peel ω :=
  if p.heap.contains link.1 then
    match p.heap.key? link.1 with
    | none => p
    | some degree =>
      { heap := p.heap.update link.1 (Weight.sub degree link.2)
        degreeSum := Weight.sub p.degreeSum (Weight.twice link.2) }
  else p

/-- The first stage, with all members. -/
def start (adj : Adjacency ω) : Peel ω :=
  let degrees := adj.degrees
  { heap := .ofKeys degrees, degreeSum := Weight.sum degrees.toList }

/-- The member of least degree and the stage after it is taken away, if any is left. -/
def next? (adj : Adjacency ω) (p : Peel ω) : Option (Nat × Peel ω) :=
  match p.heap.pop? with
  | none => none
  | some ((node, _), heap) => some (node, (adj[node]?.getD []).foldl lower { p with heap })

/-- Takes away `left` members. Of the sets on the way and the best one so far, given by its
density and the members taken away from it, the first of the densest. -/
def go (adj : Adjacency ω) : (left : Nat) → Peel ω → (peeled : List Nat) → ω × List Nat →
    ω × List Nat
  | 0, _, _, best => best
  | left + 1, p, peeled, best =>
    match p.next? adj with
    | none => best
    | some (node, p) =>
      let peeled := node :: peeled
      if left = 0 then best
      else
        let density := Weight.divNat p.degreeSum left
        let best := if Weight.lt best.1 density then (density, peeled) else best
        go adj left p peeled best

/-- The density of the densest set found and the members that are not in it. -/
def densest (adj : Adjacency ω) : ω × List Nat :=
  let p := start adj
  go adj adj.size p [] (Weight.divNat p.degreeSum adj.size, [])

end Peel

end Cochange
