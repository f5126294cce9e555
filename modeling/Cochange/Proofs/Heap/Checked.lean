import Cochange.Proofs.Heap.Spec

/-!
# Accesses to the heap

The heap looks up items, keys and positions, and what it does where nothing is found never comes
to pass. Here each operation is written down once more, so that it gives nothing as soon as an
access is out of range. As long as the positions are the inverse of the items, none is: every
operation gives what it gives unchecked, and leaves a heap that is indexed again
(`checkedOfKeys_eq`, `checkedPop_eq`, `checkedUpdate_eq`). This holds in any order of the items,
and so whatever the keys are.
-/

namespace Cochange

namespace MinHeap

variable {ω : Type} [Weight ω] {h : MinHeap ω} {x p q pos : Nat}

/-! ## Comparing and exchanging -/

/-- Comparing the items at two positions reads both and their keys. -/
def checkedBefore (h : MinHeap ω) (p q : Nat) : Option Bool := do
  let x ← h.items[p]?
  let y ← h.items[q]?
  let _ ← h.keys[x]?
  let _ ← h.keys[y]?
  return h.before p q

/-- Exchanging the items at two positions reads both and writes their positions. -/
def checkedSwap (h : MinHeap ω) (p q : Nat) : Option (MinHeap ω) := do
  let x ← h.items[p]?
  let y ← h.items[q]?
  let _ ← h.positions[x]?
  let _ ← h.positions[y]?
  return h.swap p q

omit [Weight ω] in
/-- What is at a position has a key and is told its position. -/
theorem Indexed.reads (hi : h.Indexed) (hp : p < h.items.size) :
    ∃ x a pos, h.items[p]? = some x ∧ h.keys[x]? = some a ∧ h.positions[x]? = some pos := by
  have hx := Array.getElem?_eq_getElem hp
  have hlt := lt_of_position? ((hi.inverse _ p).mpr hx)
  have hlt' := hlt
  rw [hi.size] at hlt'
  exact ⟨_, _, _, hx, Array.getElem?_eq_getElem hlt', Array.getElem?_eq_getElem hlt⟩

/-- Two places of the heap are compared without a missed lookup. -/
theorem checkedBefore_eq (hi : h.Indexed) (hp : p < h.items.size) (hq : q < h.items.size) :
    h.checkedBefore p q = some (h.before p q) := by
  obtain ⟨x, a, -, hx, ha, -⟩ := hi.reads hp
  obtain ⟨y, b, -, hy, hb, -⟩ := hi.reads hq
  unfold checkedBefore
  rw [hx, hy]
  dsimp only [Option.bind_eq_bind, Option.bind_some]
  rw [ha, hb]
  rfl

omit [Weight ω] in
/-- Two places of the heap are exchanged without a missed lookup. -/
theorem checkedSwap_eq (hi : h.Indexed) (hp : p < h.items.size) (hq : q < h.items.size) :
    h.checkedSwap p q = some (h.swap p q) := by
  obtain ⟨x, -, i, hx, -, hi'⟩ := hi.reads hp
  obtain ⟨y, -, j, hy, -, hj⟩ := hi.reads hq
  unfold checkedSwap
  rw [hx, hy]
  dsimp only [Option.bind_eq_bind, Option.bind_some]
  rw [hi', hj]
  rfl

omit [Weight ω] in
theorem size_of_checkedSwap {h' : MinHeap ω} (hs : h.checkedSwap p q = some h') :
    h'.items.size = h.items.size := by
  unfold checkedSwap at hs
  simp only [Option.bind_eq_bind, Option.bind_eq_some_iff, Option.pure_def, Option.some.injEq] at hs
  obtain ⟨-, -, -, -, -, -, -, -, rfl⟩ := hs
  exact swap_size h p q

/-! ## Sifting -/

/-- Sifting up compares and exchanges. -/
def checkedSiftUp (h : MinHeap ω) (pos : Nat) : Option (MinHeap ω) :=
  if 0 < pos then
    (h.checkedBefore pos ((pos - 1) / 2)).bind fun before =>
      if before then
        (h.checkedSwap pos ((pos - 1) / 2)).bind (·.checkedSiftUp ((pos - 1) / 2))
      else some h
  else some h
termination_by pos
decreasing_by omega

/-- A position outside of the heap is not compared with. -/
def checkedEarlier (h : MinHeap ω) (i j : Nat) : Option Nat :=
  if j < h.items.size then (h.checkedBefore j i).map fun before => if before then j else i
  else some i

/-- Choosing among a position and its two children compares twice at most. -/
def checkedLeast (h : MinHeap ω) (pos : Nat) : Option Nat :=
  (h.checkedEarlier pos (2 * pos + 1)).bind (h.checkedEarlier · (2 * pos + 2))

/-- What is chosen of two places is one of them, and the second only when it exists. -/
theorem checkedEarlier_cases {i j k : Nat} (hk : h.checkedEarlier i j = some k) :
    k = i ∨ (k = j ∧ j < h.items.size) := by
  unfold checkedEarlier at hk
  split at hk
  next hj =>
    obtain ⟨before, -, hk⟩ := Option.map_eq_some_iff.mp hk
    cases before with
    | true => exact Or.inr ⟨hk.symm, hj⟩
    | false => exact Or.inl hk.symm
  next => exact Or.inl (Option.some.inj hk).symm

/-- The place an item sinks to lies farther down, and in the heap. -/
theorem checkedLeast_cases {first : Nat} (hf : h.checkedLeast pos = some first) :
    first = pos ∨ (pos < first ∧ first < h.items.size) := by
  obtain ⟨k, hk, hf⟩ := Option.bind_eq_some_iff.mp hf
  rcases checkedEarlier_cases hk with rfl | ⟨rfl, hlt⟩
  · rcases checkedEarlier_cases hf with rfl | ⟨rfl, hlt⟩
    · exact Or.inl rfl
    · omega
  · rcases checkedEarlier_cases hf with rfl | ⟨rfl, hlt⟩
    · omega
    · omega

/-- Sifting down chooses and exchanges. -/
def checkedSiftDown (h : MinHeap ω) (pos : Nat) : Option (MinHeap ω) :=
  match _ : h.checkedLeast pos with
  | none => none
  | some first =>
    if first = pos then some h
    else
      match _ : h.checkedSwap pos first with
      | none => none
      | some h' => h'.checkedSiftDown first
termination_by h.items.size - pos
decreasing_by
  rw [size_of_checkedSwap ‹_›]
  have := checkedLeast_cases ‹_›
  omega

/-- Rising, the loop reads and writes places of the heap only. -/
theorem checkedSiftUp_eq (hi : h.Indexed) (hpos : pos < h.items.size) :
    h.checkedSiftUp pos = some (h.siftUp pos) := by
  induction h, pos using siftUp.induct with
  | case1 h pos h0 parent hb ih =>
    have hq : parent < h.items.size := by omega
    have hr := swap_rearranged hi hpos hq
    rw [checkedSiftUp, siftUp, if_pos h0, if_pos h0, if_pos hb, checkedBefore_eq hi hpos hq, hb,
      Option.bind_some, if_pos rfl, checkedSwap_eq hi hpos hq]
    exact ih hr.indexed (by rw [hr.size]; exact hq)
  | case2 h pos h0 parent hb =>
    have hq : parent < h.items.size := by omega
    rw [checkedSiftUp, siftUp, if_pos h0, if_pos h0, if_neg hb, checkedBefore_eq hi hpos hq,
      Option.bind_some, if_neg hb]
  | case3 h pos h0 => rw [checkedSiftUp, siftUp, if_neg h0, if_neg h0]

theorem checkedEarlier_eq (hi : h.Indexed) {i j : Nat} (hilt : i < h.items.size) :
    h.checkedEarlier i j = some (h.earlier i j) := by
  unfold checkedEarlier earlier
  by_cases hj : j < h.items.size
  · rw [if_pos hj, checkedBefore_eq hi hj hilt, Option.map_some, decide_eq_true hj, Bool.true_and]
  · rw [if_neg hj, decide_eq_false hj, Bool.false_and, if_neg (by simp)]

theorem checkedLeast_eq (hi : h.Indexed) (hpos : pos < h.items.size) :
    h.checkedLeast pos = some (h.least pos) := by
  rw [checkedLeast, checkedEarlier_eq hi hpos, Option.bind_some,
    checkedEarlier_eq hi (earlier_lt hpos _), least_eq]

/-- What a sift down does once it has chosen and exchanged. -/
theorem checkedSiftDown_of_least {first : Nat} (hf : h.checkedLeast pos = some first) :
    h.checkedSiftDown pos =
      if first = pos then some h else (h.checkedSwap pos first).bind (·.checkedSiftDown first) := by
  rw [checkedSiftDown]
  split
  next hnone => cases hf.symm.trans hnone
  next k hk =>
    obtain rfl := Option.some.inj (hf.symm.trans hk)
    split
    next => rfl
    next =>
      split
      next hnone => rw [hnone, Option.bind_none]
      next h' hs => rw [hs, Option.bind_some]

/-- Sinking, the loop reads and writes places of the heap only. -/
theorem checkedSiftDown_eq (hi : h.Indexed) (hpos : pos < h.items.size) :
    h.checkedSiftDown pos = some (h.siftDown pos) := by
  induction h, pos using siftDown.induct with
  | case1 h pos first hleast =>
    rw [checkedSiftDown_of_least (checkedLeast_eq hi hpos), siftDown, if_pos hleast, if_pos hleast]
  | case2 h pos first hne ih =>
    have hlt := (least_child h pos hne).2.2
    have hr := swap_rearranged hi hpos hlt
    rw [checkedSiftDown_of_least (checkedLeast_eq hi hpos), siftDown, if_neg hne, if_neg hne,
      checkedSwap_eq hi hpos hlt, Option.bind_some]
    exact ih hr.indexed (by rw [hr.size]; exact hlt)

/-! ## Operations -/

/-- Building sifts down from the positions that have a child, the last one first. -/
def checkedOfKeys (keys : Array ω) : Option (MinHeap ω) :=
  (List.range (keys.size / 2)).foldr (fun pos h => h.bind (·.checkedSiftDown pos))
    (some (unordered keys))

/-- There is nothing to sift in an empty heap. -/
def checkedSiftRoot (h : MinHeap ω) : Option (MinHeap ω) :=
  if h.items.size = 0 then some h else h.checkedSiftDown 0

/-- Taking out the first item moves it to the last position, and reads its key at the end. -/
def checkedPop (h : MinHeap ω) : Option (Option ((Nat × ω) × MinHeap ω)) :=
  if h.items.size = 0 then some none
  else do
    let h ← h.checkedSwap 0 (h.items.size - 1)
    let item ← h.items.back?
    let _ ← h.positions[item]?
    let h := h.dropLast item
    let h ← h.checkedSiftRoot
    let key ← h.keys[item]?
    return some ((item, key), h)

/-- Changing a key reads the old one, if the item is in the heap. -/
def checkedUpdate (h : MinHeap ω) (item : Nat) (key : ω) : Option (MinHeap ω) :=
  match h.position? item with
  | none => some h
  | some pos =>
    h.keys[item]?.bind fun old =>
      if Weight.lt key old then (h.setKey item key).checkedSiftUp pos
      else (h.setKey item key).checkedSiftDown pos

/-- A heap is built of any keys without a missed lookup. -/
theorem checkedOfKeys_eq (keys : Array ω) :
    checkedOfKeys keys = some (ofKeys keys) ∧ (ofKeys keys).Indexed := by
  have hfold : ∀ m {h : MinHeap ω}, h.Indexed → m ≤ h.items.size →
      (List.range m).foldr (fun pos h => h.bind (·.checkedSiftDown pos)) (some h) =
          some ((List.range m).foldr (fun pos h => h.siftDown pos) h) ∧
        ((List.range m).foldr (fun pos h => h.siftDown pos) h).Indexed := by
    intro m
    induction m with
    | zero => exact fun hi _ => ⟨rfl, hi⟩
    | succ m ih =>
      intro h hi hm
      have hpos : m < h.items.size := by omega
      have hr := siftDown_rearranged hi m
      rw [List.range_succ, List.foldr_append, List.foldr_append]
      show (List.range m).foldr _ (h.checkedSiftDown m) = _ ∧ _
      rw [checkedSiftDown_eq hi hpos]
      exact ih hr.indexed (by rw [hr.size]; omega)
  have hsize : (unordered keys).items.size = keys.size := Array.size_range
  exact hfold (keys.size / 2) (unordered_indexed keys) (by rw [hsize]; omega)

theorem checkedSiftRoot_eq (hi : h.Indexed) : h.checkedSiftRoot = some (h.siftDown 0) := by
  unfold checkedSiftRoot
  split
  next hs => rw [siftDown_empty hs]
  next hs => exact checkedSiftDown_eq hi (Nat.pos_of_ne_zero hs)

/-- The first item is taken out without a missed lookup, and what is left is indexed. -/
theorem checkedPop_eq (hi : h.Indexed) :
    h.checkedPop = some h.pop? ∧ ∀ first h', h.pop? = some (first, h') → h'.Indexed := by
  unfold checkedPop
  by_cases hs : h.items.size = 0
  · rw [if_pos hs, pop?_of_empty hs]
    exact ⟨rfl, fun first h' he => absurd he (by simp)⟩
  · have h0 : 0 < h.items.size := Nat.pos_of_ne_zero hs
    have hl : h.items.size - 1 < h.items.size := by omega
    obtain ⟨x, a, -, hx, ha, -⟩ := hi.reads h0
    have hr := swap_rearranged hi h0 hl
    have hlast : (h.swap 0 (h.items.size - 1)).items[(h.swap 0 (h.items.size - 1)).items.size - 1]? =
        some x := by
      rw [swap_size]
      exact items_swap_last hx
    obtain ⟨y, -, pos, hy, -, hpos⟩ := hr.indexed.reads (Array.getElem?_eq_some_iff.mp hlast).1
    have hyx : y = x := Option.some.inj (hy.symm.trans hlast)
    subst hyx
    have hdi := dropLast_indexed hr.indexed hlast
    have hback : (h.swap 0 (h.items.size - 1)).items.back? = some y := by
      rw [Array.back?_eq_getElem?, hlast]
    have hsift := siftDown_rearranged hdi 0
    have hkey : (((h.swap 0 (h.items.size - 1)).dropLast y).siftDown 0).keys[y]? = some a := by
      rw [hsift.keys]
      show (h.swap 0 (h.items.size - 1)).keys[y]? = some a
      rw [swap_keys, ha]
    rw [if_neg hs, checkedSwap_eq hi h0 hl, pop?_of_root hx ha]
    dsimp only [Option.bind_eq_bind, Option.bind_some]
    rw [hback, Option.bind_some, hpos, Option.bind_some, checkedSiftRoot_eq hdi, Option.bind_some,
      hkey]
    refine ⟨rfl, fun first h' he => ?_⟩
    rw [Option.some.injEq, Prod.mk.injEq] at he
    rw [← he.2]
    exact hsift.indexed

/-- A key is replaced without a missed lookup, whether the item is in the heap or not. -/
theorem checkedUpdate_eq (hi : h.Indexed) (x : Nat) (a : ω) :
    h.checkedUpdate x a = some (h.update x a) ∧ (h.update x a).Indexed := by
  unfold checkedUpdate
  cases hp : h.position? x with
  | none =>
    rw [update_of_not_contains (by rw [contains, hp]; rfl)]
    exact ⟨rfl, hi⟩
  | some pos =>
    have hx := (hi.inverse x pos).mp hp
    have hpos := (Array.getElem?_eq_some_iff.mp hx).1
    have hi' := setKey_indexed hi x a
    obtain ⟨b, hb⟩ := hi.key?_isSome (hi.contains_of_item hx)
    rw [update_of_position hp hb]
    dsimp only
    rw [show h.keys[x]? = some b from hb, Option.bind_some]
    split
    next => exact ⟨checkedSiftUp_eq hi' hpos, (siftUp_rearranged hi' hpos).indexed⟩
    next => exact ⟨checkedSiftDown_eq hi' hpos, (siftDown_rearranged hi' pos).indexed⟩

end MinHeap

end Cochange
