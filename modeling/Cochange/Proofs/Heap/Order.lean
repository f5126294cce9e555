import Cochange.MinHeap
import Mathlib.Logic.Equiv.Basic

/-!
# The order of the items

Items are ordered by key and by number among equal keys. `itemBefore` is the strict part of
this order on the items that have a key (`not_before_trans`, `itemBefore_total`). A heap is
`Indexed` if the array of positions is the inverse of the array of items, and `Ordered` if no
item comes before the one at its parent's position; then none comes before the one at the root
(`Ordered.root_first`).

Exchanging two items permutes the positions and does nothing else. This is summed up in
`Rearranged`, so that all that holds of any number of exchanges is proved once.
-/

namespace Cochange

variable {ω : Type}

namespace MinHeap

variable {h h' : MinHeap ω} {x y z p q : Nat}

/-! ## The index -/

theorem lt_of_position? {pos : Nat} (hx : h.position? x = some pos) : x < h.positions.size := by
  by_contra hn
  rw [position?, Array.getElem?_eq_none (by omega)] at hx
  exact absurd hx (by simp)

theorem join_setIfInBounds {α : Type} (ps : Array (Option α)) (x z : Nat) (v : Option α) :
    (ps.setIfInBounds x v)[z]?.join = if z = x ∧ x < ps.size then v else ps[z]?.join := by
  rw [Array.getElem?_setIfInBounds]
  by_cases hzx : z = x
  · by_cases hx : x < ps.size
    · rw [if_pos hzx.symm, if_pos hx, if_pos ⟨hzx, hx⟩, Option.join_some]
    · rw [if_pos hzx.symm, if_neg hx, if_neg (fun hc => hx hc.2), hzx,
        Array.getElem?_eq_none (by omega)]
  · rw [if_neg (Ne.symm hzx), if_neg (fun hc => hzx hc.1)]

/-- The array of positions is the inverse of the array of items. -/
structure Indexed (h : MinHeap ω) : Prop where
  size : h.positions.size = h.keys.size
  inverse : ∀ x pos, h.position? x = some pos ↔ h.items[pos]? = some x

namespace Indexed

/-- Every item in the heap has a key. -/
theorem key?_isSome (hi : h.Indexed) (hc : h.contains x = true) : ∃ a, h.key? x = some a := by
  obtain ⟨pos, hp⟩ := Option.isSome_iff_exists.mp hc
  have hx := lt_of_position? hp
  rw [hi.size] at hx
  exact ⟨h.keys[x], Array.getElem?_eq_getElem hx⟩

/-- What has a place is in the heap. -/
theorem contains_of_item (hi : h.Indexed) {pos : Nat} (hp : h.items[pos]? = some x) :
    h.contains x = true := by
  rw [contains, (hi.inverse x pos).mpr hp]
  rfl

/-- What is in the heap has a place. -/
theorem item_of_contains (hi : h.Indexed) (hc : h.contains x = true) :
    ∃ pos, pos < h.items.size ∧ h.items[pos]? = some x := by
  obtain ⟨pos, hp⟩ := Option.isSome_iff_exists.mp hc
  have hx := (hi.inverse x pos).mp hp
  exact ⟨pos, (Array.getElem?_eq_some_iff.mp hx).1, hx⟩

/-- An item has one place. -/
theorem eq_of_items (hi : h.Indexed) {i j : Nat} (hx : h.items[i]? = some x)
    (hy : h.items[j]? = some x) : i = j := by
  have h1 := (hi.inverse x i).mpr hx
  rw [(hi.inverse x j).mpr hy] at h1
  exact (Option.some.inj h1).symm

end Indexed

/-! ## Exchanges -/

/-- The same items with the same keys in other positions. -/
structure Rearranged (h h' : MinHeap ω) : Prop where
  keys : h'.keys = h.keys
  size : h'.items.size = h.items.size
  contains : ∀ x, h'.contains x = h.contains x
  indexed : h'.Indexed

theorem Rearranged.refl (hi : h.Indexed) : Rearranged h h :=
  ⟨rfl, rfl, fun _ => rfl, hi⟩

theorem Rearranged.trans {h₁ h₂ h₃ : MinHeap ω} (h12 : Rearranged h₁ h₂)
    (h23 : Rearranged h₂ h₃) : Rearranged h₁ h₃ :=
  ⟨h23.keys.trans h12.keys, h23.size.trans h12.size,
    fun x => (h23.contains x).trans (h12.contains x), h23.indexed⟩

/-- Exchanging two places, spelt out for the items found there. -/
theorem swap_of_items (hp : h.items[p]? = some x) (hq : h.items[q]? = some y) :
    h.swap p q =
      { h with
        items := (h.items.setIfInBounds p y).setIfInBounds q x
        positions := (h.positions.setIfInBounds y (some p)).setIfInBounds x (some q) } := by
  unfold swap
  rw [hp, hq]

theorem swap_keys (h : MinHeap ω) (p q : Nat) : (h.swap p q).keys = h.keys := by
  unfold swap
  split <;> rfl

/-- Each position holds what the one it is exchanged with held. -/
theorem items_swap (hp : p < h.items.size) (hq : q < h.items.size) (i : Nat) :
    (h.swap p q).items[i]? = h.items[Equiv.swap p q i]? := by
  obtain ⟨x, hx⟩ : ∃ x, h.items[p]? = some x := ⟨_, Array.getElem?_eq_getElem hp⟩
  obtain ⟨y, hy⟩ : ∃ y, h.items[q]? = some y := ⟨_, Array.getElem?_eq_getElem hq⟩
  rw [swap_of_items hx hy, Equiv.swap_apply_def, Array.getElem?_setIfInBounds,
    Array.getElem?_setIfInBounds, Array.size_setIfInBounds, if_pos hq, if_pos hp]
  by_cases hip : i = p
  · rw [if_pos hip, if_pos hip.symm, hy]
    split
    next hiq =>
      rw [hiq, hip, hx] at hy
      exact hy
    next => rfl
  · rw [if_neg hip, if_neg (Ne.symm hip)]
    by_cases hiq : i = q
    · rw [if_pos hiq, if_pos hiq.symm, hx]
    · rw [if_neg hiq, if_neg (Ne.symm hiq)]

/-- Each item stands where the one it is exchanged with stood. -/
theorem position?_swap (hi : h.Indexed) (hp : p < h.items.size) (hq : q < h.items.size) (z : Nat) :
    (h.swap p q).position? z = (h.position? z).map (Equiv.swap p q) := by
  obtain ⟨x, hx⟩ : ∃ x, h.items[p]? = some x := ⟨_, Array.getElem?_eq_getElem hp⟩
  obtain ⟨y, hy⟩ : ∃ y, h.items[q]? = some y := ⟨_, Array.getElem?_eq_getElem hq⟩
  have hpx := (hi.inverse x p).mpr hx
  have hqy := (hi.inverse y q).mpr hy
  rw [swap_of_items hx hy]
  show (((h.positions.setIfInBounds y (some p)).setIfInBounds x (some q))[z]?).join = _
  rw [join_setIfInBounds, join_setIfInBounds, Array.size_setIfInBounds]
  by_cases hzx : z = x
  · rw [if_pos ⟨hzx, lt_of_position? hpx⟩, hzx, hpx, Option.map_some, Equiv.swap_apply_left]
  · rw [if_neg (fun hc => hzx hc.1)]
    by_cases hzy : z = y
    · rw [if_pos ⟨hzy, lt_of_position? hqy⟩, hzy, hqy, Option.map_some, Equiv.swap_apply_right]
    · rw [if_neg (fun hc => hzy hc.1)]
      -- an item at neither position stands where it stood
      show h.position? z = _
      cases hz : h.position? z with
      | none => rfl
      | some pos =>
        have hz' := (hi.inverse z pos).mp hz
        have hne : pos ≠ p ∧ pos ≠ q := by
          constructor
          · intro he
            rw [he, hx] at hz'
            exact hzx (Option.some.inj hz').symm
          · intro he
            rw [he, hy] at hz'
            exact hzy (Option.some.inj hz').symm
        rw [Option.map_some, Equiv.swap_apply_of_ne_of_ne hne.1 hne.2]

/-- Exchanging two places rearranges the heap. -/
theorem swap_rearranged (hi : h.Indexed) (hp : p < h.items.size) (hq : q < h.items.size) :
    Rearranged h (h.swap p q) where
  keys := swap_keys h p q
  size := swap_size h p q
  contains z := by rw [contains, contains, position?_swap hi hp hq, Option.isSome_map]
  indexed := by
    constructor
    · rw [swap_keys, ← hi.size]
      unfold swap
      split <;> simp
    · intro z pos
      rw [position?_swap hi hp hq, items_swap hp hq, ← hi.inverse]
      constructor
      · intro hz
        obtain ⟨pos', hpos', he⟩ := Option.map_eq_some_iff.mp hz
        rw [hpos', ← he, Equiv.swap_apply_self]
      · intro hz
        rw [hz, Option.map_some, Equiv.swap_apply_self]

end MinHeap

/-! ## The order -/

variable [Weight ω]

/-- The order of numbered keys: by key, and by number among equal keys. -/
def rankOrder : ω × Nat → ω × Nat → Ordering :=
  compareLex (fun x y => Weight.order x.1 y.1) (compareOn Prod.snd)

section RankOrder

variable [Std.TransCmp (Weight.order : ω → ω → Ordering)]

instance transCmp_key : Std.TransCmp fun x y : ω × Nat => Weight.order x.1 y.1 where
  eq_swap := Std.OrientedCmp.eq_swap
  isLE_trans := Std.TransCmp.isLE_trans

instance transCmp_rankOrder : Std.TransCmp (rankOrder : ω × Nat → ω × Nat → Ordering) :=
  inferInstanceAs
    (Std.TransCmp (compareLex (fun x y : ω × Nat => Weight.order x.1 y.1) (compareOn Prod.snd)))

end RankOrder

/-- With the same number it is the keys that decide. -/
theorem rankOrder_same_number (a b : ω) (x : Nat) :
    rankOrder (a, x) (b, x) = Weight.order a b := by
  show (Weight.order a b).then (compare x x) = _
  rw [Nat.compare_eq_eq.mpr rfl]
  cases Weight.order a b <;> rfl

namespace MinHeap

variable {h h' : MinHeap ω} {x y z p q : Nat} {a b : ω}

/-- Items are compared by their keys, and items of equal keys by their numbers. -/
theorem itemBefore_eq (ha : h.key? x = some a) (hb : h.key? y = some b) :
    h.itemBefore x y = true ↔ rankOrder (a, x) (b, y) = .lt := by
  unfold itemBefore key? at *
  rw [ha, hb]
  show _ ↔ (Weight.order a b).then (compare x y) = .lt
  cases hab : Weight.order a b with
  | lt => simp only [hab, Ordering.lt_then]
  | eq => simp only [hab, Ordering.eq_then, Nat.compare_eq_lt, decide_eq_true_eq]
  | gt => simp [hab]

/-- Only items with a key come before or after others. -/
theorem keys_of_itemBefore (hxy : h.itemBefore x y = true) :
    ∃ a b, h.key? x = some a ∧ h.key? y = some b ∧ rankOrder (a, x) (b, y) = .lt := by
  cases ha : h.key? x with
  | none =>
    unfold itemBefore key? at *
    rw [ha] at hxy
    exact absurd hxy (by simp)
  | some a =>
    cases hb : h.key? y with
    | none =>
      unfold itemBefore key? at *
      rw [ha, hb] at hxy
      exact absurd hxy (by simp)
    | some b => exact ⟨a, b, rfl, rfl, (itemBefore_eq ha hb).mp hxy⟩

/-- The order of two items depends on their keys only. -/
theorem itemBefore_congr (hx : h'.key? x = h.key? x) (hy : h'.key? y = h.key? y) :
    h'.itemBefore x y = h.itemBefore x y := by
  unfold itemBefore key? at *
  rw [hx, hy]

section Laws

variable [Std.TransCmp (Weight.order : ω → ω → Ordering)]

theorem itemBefore_irrefl (h : MinHeap ω) (x : Nat) : ¬h.itemBefore x x = true := by
  intro hx
  obtain ⟨a, b, ha, hb, hab⟩ := keys_of_itemBefore hx
  rw [ha] at hb
  have heq : rankOrder (a, x) (a, x) = .eq := Std.ReflCmp.compare_self
  rw [← Option.some.inj hb, heq] at hab
  exact absurd hab (by simp)

/-- The order of items is transitive, as the order of keys is. -/
theorem itemBefore_trans (hxy : h.itemBefore x y = true) (hyz : h.itemBefore y z = true) :
    h.itemBefore x z = true := by
  obtain ⟨a, b, ha, hb, hab⟩ := keys_of_itemBefore hxy
  obtain ⟨b', c, hb', hc, hbc⟩ := keys_of_itemBefore hyz
  rw [hb] at hb'
  rw [← Option.some.inj hb'] at hbc
  exact (itemBefore_eq ha hc).mpr (Std.TransCmp.lt_trans hab hbc)

/-- Two different items with keys are in one order or the other. -/
theorem itemBefore_total (ha : h.key? x = some a) (hb : h.key? y = some b) (hxy : x ≠ y) :
    h.itemBefore x y = true ∨ h.itemBefore y x = true := by
  rw [itemBefore_eq ha hb, itemBefore_eq hb ha]
  cases hab : rankOrder (a, x) (b, y) with
  | lt => exact Or.inl rfl
  | eq =>
    have hn : compare x y = .eq := (Ordering.then_eq_eq.mp hab).2
    exact absurd (Nat.compare_eq_eq.mp hn) hxy
  | gt => exact Or.inr (Std.OrientedCmp.gt_iff_lt.mp hab)

/-- What does not come before something that has a key does not come before anything that this
does not come before. -/
theorem not_before_trans (hy : h.key? y = some b) (hyx : ¬h.itemBefore y x = true)
    (hzy : ¬h.itemBefore z y = true) : ¬h.itemBefore z x = true := by
  intro hzx
  obtain ⟨c, a, hc, ha, -⟩ := keys_of_itemBefore hzx
  by_cases hxy : x = y
  · rw [hxy] at hzx
    exact hzy hzx
  -- `y` has a key, so it is before `x` or after it
  · rcases itemBefore_total ha hy hxy with h1 | h1
    · exact hzy (itemBefore_trans hzx h1)
    · exact hyx h1

end Laws

/-- Places compare as the items found there. -/
theorem before_eq (hx : h.items[p]? = some x) (hy : h.items[q]? = some y) :
    h.before p q = h.itemBefore x y := by
  unfold before
  rw [hx, hy]

/-- Only positions that hold an item come before or after others. -/
theorem items_of_before (hpq : h.before p q = true) :
    (∃ x, h.items[p]? = some x) ∧ ∃ y, h.items[q]? = some y := by
  unfold before at hpq
  cases hx : h.items[p]? with
  | none => rw [hx] at hpq; exact absurd hpq (by simp)
  | some x =>
    cases hy : h.items[q]? with
    | none => rw [hx, hy] at hpq; exact absurd hpq (by simp)
    | some y => exact ⟨⟨x, rfl⟩, y, rfl⟩

/-- After an exchange two places compare as the places they came from. -/
theorem before_swap (hp : p < h.items.size) (hq : q < h.items.size) (i j : Nat) :
    (h.swap p q).before i j = h.before (Equiv.swap p q i) (Equiv.swap p q j) := by
  unfold before
  rw [items_swap hp hq, items_swap hp hq]
  cases h.items[Equiv.swap p q i]? with
  | none => rfl
  | some x =>
    cases h.items[Equiv.swap p q j]? with
    | none => rfl
    | some y =>
      exact itemBefore_congr (by rw [key?, key?, swap_keys]) (by rw [key?, key?, swap_keys])

end MinHeap

end Cochange
