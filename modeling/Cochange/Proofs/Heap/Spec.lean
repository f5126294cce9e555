import Cochange.Proofs.Heap.Sift

/-!
# What each operation does

A heap stands for a set of items with a key each. Each theorem takes a heap that is `Valid` and
says of which set the heap is valid after the operation, and what the operation answers:

* `ofKeys_spec`: all items are in the heap, with the keys given.
* `pop?_spec`: the item that comes first is answered with its key and taken out, if there is one.
* `update_spec`: the key of an item is another one, if the item is in the heap; otherwise nothing
  happens (`update_of_not_contains`).

Which items there are afterwards, and with which keys, does not depend on the order, so this part is
said of any heap that is indexed (`pop?_removed`, `update_rearranged`).

A key can be changed if the comparison that decides which way the item moves agrees with the
order (`Comparable`). For weights in exact arithmetic this holds of any two keys.
-/

namespace Cochange

namespace MinHeap

variable {ω : Type} [Weight ω] {h : MinHeap ω}

/-- A heap that is indexed and in order. -/
structure Valid (h : MinHeap ω) : Prop where
  indexed : h.Indexed
  ordered : h.Ordered

/-- A rearrangement that is in order is a valid heap. -/
theorem Rearranged.valid {h' : MinHeap ω} (hr : Rearranged h h') (ho : h'.Ordered) : h'.Valid :=
  ⟨hr.indexed, ho⟩

/-! ## Building -/

section Build

/-- The items in the order of their numbers. -/
def unordered (keys : Array ω) : MinHeap ω :=
  { keys, items := Array.range keys.size, positions := (Array.range keys.size).map some }

omit [Weight ω] in
theorem position?_unordered (keys : Array ω) (x : Nat) :
    (unordered keys).position? x = if x < keys.size then some x else none := by
  show (((Array.range keys.size).map some)[x]?).join = _
  rw [Array.getElem?_map, Array.getElem?_range]
  split <;> rfl

omit [Weight ω] in
/-- Before anything is sifted each item stands at the place of its number. -/
theorem unordered_indexed (keys : Array ω) : (unordered keys).Indexed where
  size := by simp [unordered]
  inverse x pos := by
    rw [position?_unordered]
    show _ ↔ (Array.range keys.size)[pos]? = some x
    rw [Array.getElem?_range]
    constructor
    · intro hx
      obtain ⟨hlt, he⟩ := Option.ite_none_right_eq_some.mp hx
      rw [← Option.some.inj he, if_pos hlt]
    · intro hx
      obtain ⟨hlt, he⟩ := Option.ite_none_right_eq_some.mp hx
      rw [← Option.some.inj he, if_pos hlt]

variable [Std.TransCmp (Weight.order : ω → ω → Ordering)]

/-- Sifting down from the positions below `m`, the last one first, puts all parents in order. -/
theorem foldr_siftDown (m : Nat) : ∀ {h : MinHeap ω}, h.Indexed → m ≤ h.items.size →
    h.OrderedFrom m →
    let h' := (List.range m).foldr (fun pos h => h.siftDown pos) h
    Rearranged h h' ∧ h'.Ordered := by
  induction m with
  | zero =>
    intro h hi _ ho
    exact ⟨.refl hi, ho⟩
  | succ m ih =>
    intro h hi hm ho
    have hdown : h.DownOrder m m :=
      ⟨fun i hi0 hilt hlo hne => ho i hi0 hilt (by omega), fun h0 hlo => by omega⟩
    have hr := siftDown_rearranged hi m
    have hrest := ih hr.indexed (by rw [hr.size]; omega) (siftDown_ordered hi (by omega) hdown)
    rw [List.range_succ, List.foldr_append]
    exact ⟨hr.trans hrest.1, hrest.2⟩

/-- A heap that is built holds every item, with the keys it is built from. -/
theorem ofKeys_spec (keys : Array ω) :
    (ofKeys keys).Valid ∧ (ofKeys keys).keys = keys ∧ (ofKeys keys).items.size = keys.size ∧
      ∀ x, (ofKeys keys).contains x = decide (x < keys.size) := by
  have hsize : (unordered keys).items.size = keys.size := Array.size_range
  have ho : (unordered keys).OrderedFrom (keys.size / 2) := by
    intro i hi0 hilt hlo
    rw [hsize] at hilt
    omega
  have hb := foldr_siftDown (keys.size / 2) (unordered_indexed keys) (by rw [hsize]; omega) ho
  refine ⟨hb.1.valid hb.2, hb.1.keys, hb.1.size.trans hsize, fun x => ?_⟩
  rw [show (ofKeys keys).contains x = (unordered keys).contains x from hb.1.contains x, contains,
    position?_unordered]
  split
  next hx => rw [decide_eq_true hx]; rfl
  next hx => rw [decide_eq_false hx]; rfl

end Build

/-! ## Taking out the first item -/

section Pop

/-- The heap without the item at its last position. -/
def dropLast (h : MinHeap ω) (x : Nat) : MinHeap ω :=
  { h with items := h.items.pop, positions := h.positions.setIfInBounds x none }

variable {x : Nat}

omit [Weight ω] in
theorem position?_dropLast (h : MinHeap ω) (x y : Nat) :
    (h.dropLast x).position? y = if y = x then none else h.position? y := by
  show ((h.positions.setIfInBounds x none)[y]?).join = _
  rw [join_setIfInBounds]
  by_cases hy : y = x
  · rw [if_pos hy]
    split
    next => rfl
    next hn => rw [Array.getElem?_eq_none (by omega)]; rfl
  · rw [if_neg hy, if_neg fun hc => hy hc.1]
    rfl

omit [Weight ω] in
/-- Dropping the last place takes its item out, and no other. -/
theorem contains_dropLast (h : MinHeap ω) (x y : Nat) :
    (h.dropLast x).contains y = (h.contains y && decide (y ≠ x)) := by
  rw [contains, contains, position?_dropLast]
  by_cases hy : y = x
  · rw [if_pos hy, decide_eq_false (not_not_intro hy), Bool.and_false]
    rfl
  · rw [if_neg hy, decide_eq_true hy, Bool.and_true]

omit [Weight ω] in
/-- Dropping the last place keeps the others indexed. -/
theorem dropLast_indexed (hi : h.Indexed) (hx : h.items[h.items.size - 1]? = some x) :
    (h.dropLast x).Indexed where
  size := by
    show (h.positions.setIfInBounds x none).size = h.keys.size
    rw [Array.size_setIfInBounds, hi.size]
  inverse y pos := by
    rw [position?_dropLast]
    show _ ↔ h.items.pop[pos]? = some y
    rw [Array.getElem?_pop]
    have hne : y ≠ x ∧ h.items[pos]? = some y ↔ pos < h.items.size - 1 ∧ h.items[pos]? = some y := by
      constructor
      · intro ⟨hyx, hy⟩
        have hpos := (Array.getElem?_eq_some_iff.mp hy).1
        have hlast : pos ≠ h.items.size - 1 := by
          intro he
          rw [he, hx] at hy
          exact hyx (Option.some.inj hy).symm
        exact ⟨by omega, hy⟩
      · intro ⟨hpos, hy⟩
        refine ⟨fun he => ?_, hy⟩
        rw [he] at hy
        have := hi.eq_of_items hy hx
        omega
    rw [Option.ite_none_left_eq_some, hi.inverse, hne]
    constructor
    · intro ⟨hpos, hy⟩
      rw [if_pos hpos]
      exact hy
    · intro hy
      exact Option.ite_none_right_eq_some.mp hy

theorem before_dropLast (h : MinHeap ω) {i j : Nat} (hilt : i < h.items.size - 1)
    (hj : j < h.items.size - 1) : (h.dropLast x).before i j = h.before i j := by
  have hitem : ∀ {k}, k < h.items.size - 1 → (h.dropLast x).items[k]? = h.items[k]? := by
    intro k hk
    show h.items.pop[k]? = _
    rw [Array.getElem?_pop, if_pos hk]
  rw [before, before, hitem hilt, hitem hj]
  rfl

theorem siftDown_empty (hs : h.items.size = 0) (pos : Nat) : h.siftDown pos = h := by
  rw [siftDown, if_pos]
  by_contra hne
  have := (least_child h pos hne).2.2
  omega

theorem pop?_of_empty (hs : h.items.size = 0) : h.pop? = none := by
  have hnone : (h.swap 0 (h.items.size - 1)).items.back? = none := by
    rw [Array.back?_eq_getElem?, swap_size, Array.getElem?_eq_none (by rw [swap_size]; omega)]
  unfold pop?
  simp only [hnone]

omit [Weight ω] in
/-- The root's item goes to the last position, from which it is taken. -/
theorem items_swap_last (hx : h.items[0]? = some x) :
    (h.swap 0 (h.items.size - 1)).items[h.items.size - 1]? = some x := by
  have h0 := (Array.getElem?_eq_some_iff.mp hx).1
  rw [items_swap h0 (by omega), Equiv.swap_apply_right, hx]

/-- Taking the first item out: it goes to the last place, is dropped, and what took its place sinks.
-/
theorem pop?_of_root {a : ω} (hx : h.items[0]? = some x) (ha : h.key? x = some a) :
    h.pop? = some ((x, a), ((h.swap 0 (h.items.size - 1)).dropLast x).siftDown 0) := by
  have hback : (h.swap 0 (h.items.size - 1)).items.back? = some x := by
    rw [Array.back?_eq_getElem?, swap_size, items_swap_last hx]
  have hkey : (h.swap 0 (h.items.size - 1)).keys[x]? = some a := by
    rw [swap_keys]
    exact ha
  unfold pop?
  simp only [hback, hkey]
  rfl

/-- The item `x` is no longer there. All other items are, with their keys. -/
structure Removed (h : MinHeap ω) (x : Nat) (h' : MinHeap ω) : Prop where
  keys : h'.keys = h.keys
  size : h'.items.size + 1 = h.items.size
  contains : ∀ y, h'.contains y = (h.contains y && decide (y ≠ x))
  indexed : h'.Indexed

omit [Weight ω] in
/-- An item stays out when the rest is rearranged. -/
theorem Removed.rearranged {h' h'' : MinHeap ω} (hout : Removed h x h') (hr : Rearranged h' h'') :
    Removed h x h'' where
  keys := hr.keys.trans hout.keys
  size := by rw [hr.size, hout.size]
  contains y := (hr.contains y).trans (hout.contains y)
  indexed := hr.indexed

omit [Weight ω] in
/-- The root's item is taken out of the heap at the last position. -/
theorem removed_root (hi : h.Indexed) (hx : h.items[0]? = some x) :
    Removed h x ((h.swap 0 (h.items.size - 1)).dropLast x) := by
  have h0 := (Array.getElem?_eq_some_iff.mp hx).1
  have hr := swap_rearranged hi h0 (show h.items.size - 1 < h.items.size by omega)
  refine ⟨swap_keys h _ _, ?_, fun y => ?_, ?_⟩
  · show (h.swap 0 (h.items.size - 1)).items.pop.size + 1 = _
    rw [Array.size_pop, swap_size]
    omega
  · rw [contains_dropLast, hr.contains]
  · exact dropLast_indexed hr.indexed (by rw [swap_size]; exact items_swap_last hx)

/-- Whatever the order of the items is, one of them is taken out of a heap that is not empty. -/
theorem pop?_removed (hi : h.Indexed) (hs : h.items.size ≠ 0) :
    ∃ x a h', h.pop? = some ((x, a), h') ∧ h.contains x = true ∧ h.key? x = some a ∧
      Removed h x h' := by
  have hx := Array.getElem?_eq_getElem (Nat.pos_of_ne_zero hs)
  have hcx := hi.contains_of_item hx
  obtain ⟨a, ha⟩ := hi.key?_isSome hcx
  have hout := removed_root hi hx
  exact ⟨_, a, _, pop?_of_root hx ha, hcx, ha,
    hout.rearranged (siftDown_rearranged hout.indexed 0)⟩

/-- The item `x` is the first one of a heap, with the key `a`, and without it the heap is `h'`. -/
structure Popped (h : MinHeap ω) (x : Nat) (a : ω) (h' : MinHeap ω) : Prop where
  contained : h.contains x = true
  key : h.key? x = some a
  first : ∀ y, h.contains y = true → ¬h.itemBefore y x = true
  valid : h'.Valid
  keys : h'.keys = h.keys
  size : h'.items.size + 1 = h.items.size
  contains : ∀ y, h'.contains y = (h.contains y && decide (y ≠ x))

variable [Std.TransCmp (Weight.order : ω → ω → Ordering)]

/-- Nothing in a valid heap comes before the item at the root. -/
theorem Valid.root_first (hv : h.Valid) (hx : h.items[0]? = some x) (y : Nat)
    (hy : h.contains y = true) : ¬h.itemBefore y x = true := by
  obtain ⟨i, hilt, hiy⟩ := hv.indexed.item_of_contains hy
  rw [← before_eq hiy hx]
  exact hv.ordered.root_first hv.indexed i hilt

/-- An empty heap answers nothing, any other one its first item. -/
theorem pop?_spec (hv : h.Valid) :
    if h.items.size = 0 then h.pop? = none
    else ∃ x a h', h.pop? = some ((x, a), h') ∧ Popped h x a h' := by
  split
  next hs => exact pop?_of_empty hs
  next hs =>
    have h0 : 0 < h.items.size := Nat.pos_of_ne_zero hs
    have hl : h.items.size - 1 < h.items.size := by omega
    obtain ⟨x, hx⟩ : ∃ x, h.items[0]? = some x := ⟨_, Array.getElem?_eq_getElem h0⟩
    have hcx := hv.indexed.contains_of_item hx
    obtain ⟨a, ha⟩ := hv.indexed.key?_isSome hcx
    refine ⟨x, a, _, pop?_of_root hx ha, ?_⟩
    have hout := removed_root hv.indexed hx
    have hsize := hout.size
    have hsift := siftDown_rearranged hout.indexed 0
    have ho : (((h.swap 0 (h.items.size - 1)).dropLast x).siftDown 0).Ordered := by
      by_cases he : h.items.size - 1 = 0
      · rw [siftDown_empty (by omega)]
        intro i _ hilt
        omega
      · refine siftDown_ordered hout.indexed (by omega) ⟨fun i hi0 hilt _ hp => ?_, by omega⟩
        -- off the root nothing was moved
        rw [before_dropLast _ (by rw [swap_size]; omega) (by rw [swap_size]; omega),
          before_swap h0 hl, Equiv.swap_apply_of_ne_of_ne (by omega) (by omega),
          Equiv.swap_apply_of_ne_of_ne hp (by omega)]
        exact hv.ordered i hi0 (by omega) (Nat.zero_le _)
    have hrest := hout.rearranged hsift
    exact ⟨hcx, ha, hv.root_first hx, hsift.valid ho, hrest.keys, hrest.size, hrest.contains⟩

end Pop

/-! ## Changing a key -/

section Update

variable {x y pos : Nat} {a b : ω}

/-- On these two keys the comparison of weights agrees with their order. -/
def Comparable (a b : ω) : Prop :=
  Weight.lt a b = true ↔ Weight.order a b = .lt

/-- The heap with another key for an item, which stays where it is. -/
def setKey (h : MinHeap ω) (x : Nat) (a : ω) : MinHeap ω :=
  { h with keys := h.keys.setIfInBounds x a }

omit [Weight ω] in
/-- A key is overwritten where there is one. -/
theorem getElem?_setIfInBounds (keys : Array ω) (x y : Nat) (a : ω) :
    (keys.setIfInBounds x a)[y]? = if y = x then keys[x]?.map fun _ => a else keys[y]? := by
  rw [Array.getElem?_setIfInBounds]
  by_cases hy : y = x
  · rw [if_pos hy, if_pos hy.symm]
    split
    next hx => rw [Array.getElem?_eq_getElem hx]; rfl
    next hx => rw [Array.getElem?_eq_none (by omega)]; rfl
  · rw [if_neg hy, if_neg (Ne.symm hy)]

omit [Weight ω] in
theorem key?_setKey (h : MinHeap ω) (x y : Nat) (a : ω) :
    (h.setKey x a).key? y = if y = x then (h.key? x).map fun _ => a else h.key? y :=
  getElem?_setIfInBounds h.keys x y a

omit [Weight ω] in
/-- Writing a key moves nothing. -/
theorem setKey_indexed (hi : h.Indexed) (x : Nat) (a : ω) : (h.setKey x a).Indexed where
  size := by
    show h.positions.size = (h.keys.setIfInBounds x a).size
    rw [Array.size_setIfInBounds, hi.size]
  inverse := hi.inverse

/-- Away from the position of its item a new key changes nothing. -/
theorem before_setKey (hi : h.Indexed) (hx : h.items[pos]? = some x) {i j : Nat} (hip : i ≠ pos)
    (hj : j ≠ pos) : (h.setKey x a).before i j = h.before i j := by
  have hother : ∀ {k y}, k ≠ pos → h.items[k]? = some y →
      (h.setKey x a).key? y = h.key? y := by
    intro k y hk hy
    rw [key?_setKey, if_neg]
    intro he
    rw [he] at hy
    exact hk (hi.eq_of_items hy hx)
  have hitem : (h.setKey x a).items = h.items := rfl
  rw [before, before, hitem]
  cases hy : h.items[i]? with
  | none => rfl
  | some y =>
    cases hz : h.items[j]? with
    | none => rfl
    | some z => exact itemBefore_congr (hother hip hy) (hother hj hz)

variable [Std.TransCmp (Weight.order : ω → ω → Ordering)]

/-- What does not come before an item does not either when the item's key falls. -/
theorem not_before_lowered (hi : h.Indexed) (hx : h.items[pos]? = some x) (hb : h.key? x = some b)
    (hab : (Weight.order a b).isLE = true) {i : Nat} (hip : i ≠ pos)
    (hn : ¬h.before i pos = true) : ¬(h.setKey x a).before i pos = true := by
  intro hlt
  obtain ⟨y, hy⟩ := (items_of_before hlt).1
  have hyx : y ≠ x := fun he => hip (hi.eq_of_items (he ▸ hy) hx)
  rw [before_eq (h := h) hy hx] at hn
  rw [before_eq (h := h.setKey x a) hy hx] at hlt
  obtain ⟨c, a', hc, ha', hca⟩ := keys_of_itemBefore hlt
  rw [key?_setKey, if_neg hyx] at hc
  rw [key?_setKey, if_pos rfl, hb] at ha'
  rw [← Option.some.inj ha'] at hca
  have hle : (rankOrder (a, x) (b, x)).isLE = true := by
    rw [rankOrder_same_number]
    exact hab
  exact hn ((itemBefore_eq hc hb).mpr (Std.TransCmp.lt_of_lt_of_isLE hca hle))

/-- An item that does not come before something does not either when its key rises. -/
theorem not_before_raised (hi : h.Indexed) (hx : h.items[pos]? = some x) (hb : h.key? x = some b)
    (hab : (Weight.order b a).isLE = true) {i : Nat} (hip : i ≠ pos)
    (hn : ¬h.before pos i = true) : ¬(h.setKey x a).before pos i = true := by
  intro hlt
  obtain ⟨y, hy⟩ := (items_of_before hlt).2
  have hyx : y ≠ x := fun he => hip (hi.eq_of_items (he ▸ hy) hx)
  rw [before_eq (h := h) hx hy] at hn
  rw [before_eq (h := h.setKey x a) hx hy] at hlt
  obtain ⟨a', c, ha', hc, hca⟩ := keys_of_itemBefore hlt
  rw [key?_setKey, if_neg hyx] at hc
  rw [key?_setKey, if_pos rfl, hb] at ha'
  rw [← Option.some.inj ha'] at hca
  have hle : (rankOrder (b, x) (a, x)).isLE = true := by
    rw [rankOrder_same_number]
    exact hab
  exact hn ((itemBefore_eq hb hc).mpr (Std.TransCmp.lt_of_isLE_of_lt hle hca))

/-- With a smaller key an item can be sifted up. -/
theorem Valid.upOrder_setKey (hv : h.Valid) (hx : h.items[pos]? = some x) (hb : h.key? x = some b)
    (hab : Weight.order a b = .lt) : (h.setKey x a).UpOrder pos := by
  have hpos := (Array.getElem?_eq_some_iff.mp hx).1
  constructor
  · intro i hi0 hilt hip
    have hn := hv.ordered i hi0 hilt (Nat.zero_le _)
    by_cases hc : (i - 1) / 2 = pos
    · rw [hc] at hn ⊢
      exact not_before_lowered hv.indexed hx hb (by rw [hab]; rfl) hip hn
    · rw [before_setKey hv.indexed hx hip hc]
      exact hn
  -- the children and the parent keep their keys, and were in order by way of the item
  · intro h0 i hi0 hilt hc
    have hn := hv.ordered i hi0 hilt (Nat.zero_le _)
    rw [hc] at hn
    rw [before_setKey hv.indexed hx (by omega) (by omega)]
    exact not_before_pos_trans hv.indexed hpos hn (hv.ordered pos h0 hpos (Nat.zero_le _))

/-- With a key that is not smaller an item can be sifted down. -/
theorem Valid.downOrder_setKey (hv : h.Valid) (hx : h.items[pos]? = some x)
    (hb : h.key? x = some b) (hab : (Weight.order b a).isLE = true) :
    (h.setKey x a).DownOrder 0 pos := by
  have hpos := (Array.getElem?_eq_some_iff.mp hx).1
  constructor
  · intro i hi0 hilt _ hc
    have hn := hv.ordered i hi0 hilt (Nat.zero_le _)
    by_cases hip : i = pos
    · rw [hip] at hn ⊢
      exact not_before_raised hv.indexed hx hb hab (by omega) hn
    · rw [before_setKey hv.indexed hx hip hc]
      exact hn
  · intro h0 _ i hi0 hilt hc
    have hn := hv.ordered i hi0 hilt (Nat.zero_le _)
    rw [hc] at hn
    rw [before_setKey hv.indexed hx (by omega) (by omega)]
    exact not_before_pos_trans hv.indexed hpos hn (hv.ordered pos h0 hpos (Nat.zero_le _))

omit [Std.TransCmp (Weight.order : ω → ω → Ordering)] in
/-- Updating an item that is not in the heap changes nothing. -/
theorem update_of_not_contains (hc : h.contains x = false) (a : ω) : h.update x a = h := by
  unfold update
  rw [contains, Option.isSome_eq_false_iff, Option.isNone_iff_eq_none] at hc
  rw [hc]

omit [Std.TransCmp (Weight.order : ω → ω → Ordering)] in
/-- An item in the heap gets its new key where it is, and is sifted from there. -/
theorem update_of_position (hp : h.position? x = some pos) (hb : h.key? x = some b) (a : ω) :
    h.update x a =
      if Weight.lt a b then (h.setKey x a).siftUp pos else (h.setKey x a).siftDown pos := by
  have hb' : h.keys[x]? = some b := hb
  unfold update
  rw [hp, hb']
  rfl

omit [Std.TransCmp (Weight.order : ω → ω → Ordering)] in
/-- The items of a heap are the same after an update, with the key changed. -/
theorem update_rearranged (hi : h.Indexed) (hc : h.contains x = true) (a : ω) :
    Rearranged (h.setKey x a) (h.update x a) := by
  obtain ⟨pos, hp⟩ := Option.isSome_iff_exists.mp hc
  obtain ⟨b, hb⟩ := hi.key?_isSome hc
  have hpos := (Array.getElem?_eq_some_iff.mp ((hi.inverse x pos).mp hp)).1
  rw [update_of_position hp hb]
  split
  next => exact siftUp_rearranged (setKey_indexed hi x a) hpos
  next => exact siftDown_rearranged (setKey_indexed hi x a) pos

/-- A heap stays in order if the new key of an item can be compared with the old one. -/
theorem update_spec (hv : h.Valid) (hc : h.contains x = true) (hb : h.key? x = some b)
    (hab : Comparable a b) : Rearranged (h.setKey x a) (h.update x a) ∧ (h.update x a).Valid := by
  obtain ⟨pos, hp⟩ := Option.isSome_iff_exists.mp hc
  have hx := (hv.indexed.inverse x pos).mp hp
  have hpos := (Array.getElem?_eq_some_iff.mp hx).1
  have hi := setKey_indexed hv.indexed x a
  have hr := update_rearranged hv.indexed hc a
  refine ⟨hr, hr.valid ?_⟩
  rw [update_of_position hp hb]
  split
  next hlt => exact siftUp_ordered hi hpos (hv.upOrder_setKey hx hb (hab.mp hlt))
  next hnlt =>
    have hle : (Weight.order b a).isLE = true := by
      rw [← Std.OrientedCmp.isGE_iff_isLE]
      cases ho : Weight.order a b with
      | lt => exact absurd (hab.mpr ho) hnlt
      | eq => rfl
      | gt => rfl
    exact siftDown_ordered hi hpos (hv.downOrder_setKey hx hb hle)

end Update

end MinHeap

end Cochange
