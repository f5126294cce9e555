import Cochange.Weight

/-!
# A heap of numbered items

The items `0, 1, …, n - 1`, each with a key that can be changed while the item is in the heap.
`pop` takes out the item that comes first: by key, and by number among equal keys.

The heap is a binary tree in an array. A changed key moves its item up if it is smaller than
before and down otherwise. "Smaller" is the comparison of weights here, not their total order;
where the two differ, as for NaN, an item may be left out of its place.
-/

namespace Cochange

/-- The items in the order of the tree, where each of them stands there, and their keys. -/
structure MinHeap (ω : Type) where
  keys : Array ω
  items : Array Nat
  positions : Array (Option Nat)

namespace MinHeap

variable {ω : Type} [Weight ω]

/-- Whether the item `x` comes before the item `y`. -/
def itemBefore (h : MinHeap ω) (x y : Nat) : Bool :=
  match h.keys[x]?, h.keys[y]? with
  | some a, some b =>
    match Weight.order a b with
    | .lt => true
    | .eq => x < y
    | .gt => false
  | _, _ => false

/-- Whether the item at position `a` comes before the one at position `b`. -/
def before (h : MinHeap ω) (a b : Nat) : Bool :=
  match h.items[a]?, h.items[b]? with
  | some x, some y => h.itemBefore x y
  | _, _ => false

/-- The heap with the items at two positions exchanged. -/
def swap (h : MinHeap ω) (a b : Nat) : MinHeap ω :=
  match h.items[a]?, h.items[b]? with
  | some x, some y =>
    { h with
      items := (h.items.setIfInBounds a y).setIfInBounds b x
      positions := (h.positions.setIfInBounds y (some a)).setIfInBounds x (some b) }
  | _, _ => h

/-- Moves the item at a position up until its parent comes before it. -/
def siftUp (h : MinHeap ω) (pos : Nat) : MinHeap ω :=
  if 0 < pos then
    let parent := (pos - 1) / 2
    if h.before pos parent then (h.swap pos parent).siftUp parent else h
  else h
termination_by pos
decreasing_by omega

/-- Which of a position and its two children holds the item that comes first. -/
def least (h : MinHeap ω) (pos : Nat) : Nat :=
  let left := 2 * pos + 1
  let right := 2 * pos + 2
  let first := if left < h.items.size && h.before left pos then left else pos
  if right < h.items.size && h.before right first then right else first

omit [Weight ω] in
theorem swap_size (h : MinHeap ω) (a b : Nat) : (h.swap a b).items.size = h.items.size := by
  unfold swap
  split <;> simp

/-- The item that comes first is at the position itself or at one behind it that is in use, so
sinking comes to an end. -/
theorem least_spec (h : MinHeap ω) (pos : Nat) :
    h.least pos = pos ∨ (pos < h.least pos ∧ h.least pos < h.items.size) := by
  unfold least
  simp only [Bool.and_eq_true, decide_eq_true_eq]
  split <;> split <;> omega

/-- Moves the item at a position down until it comes before its children. -/
def siftDown (h : MinHeap ω) (pos : Nat) : MinHeap ω :=
  let first := h.least pos
  if first = pos then h else (h.swap pos first).siftDown first
termination_by h.items.size - pos
decreasing_by
  rw [swap_size]
  have := least_spec h pos
  omega

/-- The heap of the items `0, 1, …` with these keys. -/
def ofKeys (keys : Array ω) : MinHeap ω :=
  let n := keys.size
  (List.range (n / 2)).foldr (fun pos h => h.siftDown pos)
    { keys, items := Array.range n, positions := (Array.range n).map some }

/-- Where an item stands, if it is in the heap. -/
def position? (h : MinHeap ω) (item : Nat) : Option Nat :=
  h.positions[item]?.join

/-- Whether an item is in the heap. -/
def contains (h : MinHeap ω) (item : Nat) : Bool :=
  (h.position? item).isSome

/-- The key of an item. -/
def key? (h : MinHeap ω) (item : Nat) : Option ω :=
  h.keys[item]?

/-- Takes out the first item. -/
def pop? (h : MinHeap ω) : Option ((Nat × ω) × MinHeap ω) :=
  let h := h.swap 0 (h.items.size - 1)
  match h.items.back? with
  | none => none
  | some item =>
    match h.keys[item]? with
    | none => none
    | some key =>
      let h := { h with
        items := h.items.pop
        positions := h.positions.setIfInBounds item none }
      some ((item, key), h.siftDown 0)

/-- Changes the key of an item; nothing happens if it is not in the heap. -/
def update (h : MinHeap ω) (item : Nat) (key : ω) : MinHeap ω :=
  match h.position? item, h.keys[item]? with
  | some pos, some old =>
    let h := { h with keys := h.keys.setIfInBounds item key }
    if Weight.lt key old then h.siftUp pos else h.siftDown pos
  | _, _ => h

/-- Takes out up to `fuel` items, one after the other. -/
def drainWithin : Nat → MinHeap ω → List (Nat × ω)
  | 0, _ => []
  | fuel + 1, h =>
    match h.pop? with
    | none => []
    | some (first, h) => first :: drainWithin fuel h

/-- All items in the order in which they are taken out. -/
def drain (h : MinHeap ω) : List (Nat × ω) :=
  h.drainWithin h.items.size

end MinHeap

end Cochange
