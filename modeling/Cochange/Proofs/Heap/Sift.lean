import Cochange.Proofs.Heap.Order

/-!
# The sifts order the heap

A sift starts from a heap in which a single item may be out of place. `UpOrder` and `DownOrder`
say what each of the two needs at its start: every parent and child that the item does not touch
are in order, and so are the item's children with its parent, which become neighbours when it
moves on. Each exchange keeps this for the item's new position (`UpOrder.move`,
`DownOrder.move`), so that the heap is in order when the sift stops (`siftUp_ordered`,
`siftDown_ordered`). Whatever the order, a sift only moves items about (`siftUp_rearranged`,
`siftDown_rearranged`).

While a heap is built only the parents from some position on are in order; this is the `lo` of
`OrderedFrom`.
-/

namespace Cochange

namespace MinHeap

variable {ω : Type} [Weight ω] {h : MinHeap ω} {lo pos : Nat}

/-- No item comes before the one at its parent's position, for parents from `lo` on. -/
def OrderedFrom (h : MinHeap ω) (lo : Nat) : Prop :=
  ∀ i, 0 < i → i < h.items.size → lo ≤ (i - 1) / 2 → ¬h.before i ((i - 1) / 2) = true

/-- No item comes before the one at its parent's position. -/
def Ordered (h : MinHeap ω) : Prop :=
  h.OrderedFrom 0

/-- What a sift up from a position needs: what does not touch it as a child is in order, and its
children are in order with its parent. -/
structure UpOrder (h : MinHeap ω) (pos : Nat) : Prop where
  off : ∀ i, 0 < i → i < h.items.size → i ≠ pos → ¬h.before i ((i - 1) / 2) = true
  grand : 0 < pos → ∀ i, 0 < i → i < h.items.size → (i - 1) / 2 = pos →
    ¬h.before i ((pos - 1) / 2) = true

/-- What a sift down from a position needs: what does not touch it as a parent is in order, and
its children are in order with its parent. -/
structure DownOrder (h : MinHeap ω) (lo pos : Nat) : Prop where
  off : ∀ i, 0 < i → i < h.items.size → lo ≤ (i - 1) / 2 → (i - 1) / 2 ≠ pos →
    ¬h.before i ((i - 1) / 2) = true
  grand : 0 < pos → lo ≤ (pos - 1) / 2 → ∀ i, 0 < i → i < h.items.size → (i - 1) / 2 = pos →
    ¬h.before i ((pos - 1) / 2) = true

variable [Std.TransCmp (Weight.order : ω → ω → Ordering)]

/-! ## Positions -/

theorem before_irrefl (h : MinHeap ω) (i : Nat) : ¬h.before i i = true := by
  intro hb
  obtain ⟨x, hx⟩ := (items_of_before hb).1
  rw [before_eq hx hx] at hb
  exact itemBefore_irrefl h x hb

/-- Coming before is transitive on places. -/
theorem before_trans {i j k : Nat} (hij : h.before i j = true) (hjk : h.before j k = true) :
    h.before i k = true := by
  obtain ⟨⟨x, hx⟩, y, hy⟩ := items_of_before hij
  obtain ⟨z, hz⟩ := (items_of_before hjk).2
  rw [before_eq hx hy] at hij
  rw [before_eq hy hz] at hjk
  rw [before_eq hx hz]
  exact itemBefore_trans hij hjk

theorem before_asymm {i j : Nat} (hij : h.before i j = true) : ¬h.before j i = true :=
  fun hji => before_irrefl h i (before_trans hij hji)

/-- Not coming before is transitive through a place that holds an item. -/
theorem not_before_pos_trans {i j k : Nat} (hi : h.Indexed) (hj : j < h.items.size)
    (hij : ¬h.before i j = true) (hjk : ¬h.before j k = true) : ¬h.before i k = true := by
  intro hik
  obtain ⟨⟨x, hx⟩, z, hz⟩ := items_of_before hik
  have hy := Array.getElem?_eq_getElem hj
  obtain ⟨b, hb⟩ := hi.key?_isSome (hi.contains_of_item hy)
  rw [before_eq hx hy] at hij
  rw [before_eq hy hz] at hjk
  rw [before_eq hx hz] at hik
  exact not_before_trans hb hjk hij hik

/-! ## Up -/

/-- Rising one level moves the place that may be out of order to the parent. -/
theorem UpOrder.move (ho : h.UpOrder pos) (hi : h.Indexed) (h0 : 0 < pos)
    (hpos : pos < h.items.size) (hb : h.before pos ((pos - 1) / 2) = true) :
    (h.swap pos ((pos - 1) / 2)).UpOrder ((pos - 1) / 2) := by
  have hq : (pos - 1) / 2 < h.items.size := by omega
  have hup : 0 < (pos - 1) / 2 → ¬h.before ((pos - 1) / 2) (((pos - 1) / 2 - 1) / 2) = true :=
    fun hq0 => ho.off _ hq0 hq (by omega)
  constructor
  · intro i hi0 hilt hiq
    rw [swap_size] at hilt
    rw [before_swap hpos hq]
    by_cases hip : i = pos
    -- the parent, now below the item
    · rw [hip, Equiv.swap_apply_left, Equiv.swap_apply_right]
      exact before_asymm hb
    · rw [Equiv.swap_apply_of_ne_of_ne hip hiq]
      by_cases hc : (i - 1) / 2 = pos
      -- a former child of the item, now below the parent
      · rw [hc, Equiv.swap_apply_left]
        exact ho.grand h0 i hi0 hilt hc
      · by_cases hs : (i - 1) / 2 = (pos - 1) / 2
        -- the item's sibling: it is not before the parent, and the item is
        · rw [hs, Equiv.swap_apply_right]
          have hn := ho.off i hi0 hilt hip
          rw [hs] at hn
          exact fun hlt => hn (before_trans hlt hb)
        · rw [Equiv.swap_apply_of_ne_of_ne hc hs]
          exact ho.off i hi0 hilt hip
  · intro hq0 i hi0 hilt hc
    rw [swap_size] at hilt
    rw [before_swap hpos hq,
      Equiv.swap_apply_of_ne_of_ne (show ((pos - 1) / 2 - 1) / 2 ≠ pos by omega) (by omega)]
    by_cases hip : i = pos
    · rw [hip, Equiv.swap_apply_left]
      exact hup hq0
    · rw [Equiv.swap_apply_of_ne_of_ne hip (by omega)]
      have hn := ho.off i hi0 hilt hip
      rw [hc] at hn
      exact not_before_pos_trans hi hq hn (hup hq0)

omit [Std.TransCmp (Weight.order : ω → ω → Ordering)] in
/-- A rising item that is not before its parent leaves the whole heap in order. -/
theorem UpOrder.stop (ho : h.UpOrder pos)
    (hn : 0 < pos → ¬h.before pos ((pos - 1) / 2) = true) : h.Ordered := by
  intro i hi0 hilt _
  by_cases hip : i = pos
  · rw [hip]
    exact hn (hip ▸ hi0)
  · exact ho.off i hi0 hilt hip

omit [Std.TransCmp (Weight.order : ω → ω → Ordering)] in
/-- Rising rearranges the heap, by the one exchange of each turn. -/
theorem siftUp_rearranged (hi : h.Indexed) (hpos : pos < h.items.size) :
    Rearranged h (h.siftUp pos) := by
  induction h, pos using siftUp.induct with
  | case1 h pos h0 parent hb ih =>
    rw [siftUp, if_pos h0, if_pos hb]
    have hq : parent < h.items.size := by omega
    have hr := swap_rearranged hi hpos hq
    exact hr.trans (ih hr.indexed (by rw [hr.size]; exact hq))
  | case2 h pos h0 parent hb =>
    rw [siftUp, if_pos h0, if_neg hb]
    exact .refl hi
  | case3 h pos h0 =>
    rw [siftUp, if_neg h0]
    exact .refl hi

/-- Rising puts the heap in order, when only the path upwards was not. -/
theorem siftUp_ordered (hi : h.Indexed) (hpos : pos < h.items.size) (ho : h.UpOrder pos) :
    (h.siftUp pos).Ordered := by
  induction h, pos using siftUp.induct with
  | case1 h pos h0 parent hb ih =>
    rw [siftUp, if_pos h0, if_pos hb]
    have hq : parent < h.items.size := by omega
    have hr := swap_rearranged hi hpos hq
    exact ih hr.indexed (by rw [hr.size]; exact hq) (ho.move hi h0 hpos hb)
  | case2 h pos h0 parent hb =>
    rw [siftUp, if_pos h0, if_neg hb]
    exact ho.stop fun _ => hb
  | case3 h pos h0 =>
    rw [siftUp, if_neg h0]
    exact ho.stop fun h0' => absurd h0' h0

/-! ## Down -/

/-- The second of two positions if it is in the heap and its item comes before that at the
first, and the first one otherwise. -/
def earlier (h : MinHeap ω) (i j : Nat) : Nat :=
  if j < h.items.size && h.before j i then j else i

omit [Std.TransCmp (Weight.order : ω → ω → Ordering)] in
theorem least_eq (h : MinHeap ω) (pos : Nat) :
    h.least pos = h.earlier (h.earlier pos (2 * pos + 1)) (2 * pos + 2) := rfl

omit [Std.TransCmp (Weight.order : ω → ω → Ordering)] in
/-- The earlier of two places is one of them. -/
theorem earlier_cases (h : MinHeap ω) (i j : Nat) :
    h.earlier i j = i ∨ (h.earlier i j = j ∧ j < h.items.size) := by
  unfold earlier
  split
  next hj =>
    rw [Bool.and_eq_true, decide_eq_true_eq] at hj
    exact Or.inr ⟨rfl, hj.1⟩
  next => exact Or.inl rfl

omit [Std.TransCmp (Weight.order : ω → ω → Ordering)] in
theorem earlier_lt {i : Nat} (hilt : i < h.items.size) (j : Nat) : h.earlier i j < h.items.size := by
  rcases earlier_cases h i j with he | ⟨he, hlt⟩
  · rw [he]
    exact hilt
  · rw [he]
    exact hlt

/-- Neither of two places comes before the earlier of them. -/
theorem earlier_first (h : MinHeap ω) (i j : Nat) :
    ¬h.before i (h.earlier i j) = true ∧
      (j < h.items.size → ¬h.before j (h.earlier i j) = true) := by
  unfold earlier
  split
  next hj =>
    rw [Bool.and_eq_true] at hj
    exact ⟨before_asymm hj.2, fun _ => before_irrefl h j⟩
  next hj =>
    refine ⟨before_irrefl h i, fun hlt hb => hj ?_⟩
    rw [Bool.and_eq_true, decide_eq_true_eq]
    exact ⟨hlt, hb⟩

/-- Neither a position nor its children come before the one chosen among them. -/
theorem least_first (hi : h.Indexed) (hpos : pos < h.items.size) :
    ¬h.before pos (h.least pos) = true ∧
      ∀ i, 0 < i → i < h.items.size → (i - 1) / 2 = pos → ¬h.before i (h.least pos) = true := by
  rw [least_eq]
  have hl := earlier_first h pos (2 * pos + 1)
  have hlt := earlier_lt hpos (2 * pos + 1)
  have hr := earlier_first h (h.earlier pos (2 * pos + 1)) (2 * pos + 2)
  refine ⟨not_before_pos_trans hi hlt hl.1 hr.1, fun i hi0 hilt hc => ?_⟩
  rcases (show i = 2 * pos + 1 ∨ i = 2 * pos + 2 by omega) with rfl | rfl
  · exact not_before_pos_trans hi hlt (hl.2 hilt) hr.1
  · exact hr.2 hilt

omit [Std.TransCmp (Weight.order : ω → ω → Ordering)] in
/-- The position chosen is a child in the heap, unless it is the one itself. -/
theorem least_child (h : MinHeap ω) (pos : Nat) (hne : h.least pos ≠ pos) :
    (h.least pos - 1) / 2 = pos ∧ pos < h.least pos ∧ h.least pos < h.items.size := by
  rw [least_eq] at *
  rcases earlier_cases h (h.earlier pos (2 * pos + 1)) (2 * pos + 2) with he | ⟨he, hlt⟩
  · rcases earlier_cases h pos (2 * pos + 1) with he' | ⟨he', hlt⟩
    · exact absurd (he.trans he') hne
    · omega
  · omega

/-- Sinking one level moves the place that may be out of order to the lesser child. -/
theorem DownOrder.move (ho : h.DownOrder lo pos) (hi : h.Indexed) (hne : h.least pos ≠ pos) :
    (h.swap pos (h.least pos)).DownOrder lo (h.least pos) := by
  obtain ⟨hchild, hgt, hlt⟩ := least_child h pos hne
  have hpos : pos < h.items.size := by omega
  have hfirst := least_first hi hpos
  generalize h.least pos = first at *
  constructor
  · intro i hi0 hilt hlo hpf
    rw [swap_size] at hilt
    rw [before_swap hpos hlt]
    by_cases hip : i = pos
    -- the item that moves up is in order with the parent it now has
    · rw [hip] at hi0 hlo ⊢
      rw [Equiv.swap_apply_left,
        Equiv.swap_apply_of_ne_of_ne (show (pos - 1) / 2 ≠ pos by omega) (by omega)]
      exact ho.grand hi0 hlo first (by omega) hlt hchild
    · by_cases hif : i = first
      -- the item itself, now below the child that moved up
      · rw [hif, hchild, Equiv.swap_apply_left, Equiv.swap_apply_right]
        exact hfirst.1
      · rw [Equiv.swap_apply_of_ne_of_ne hip hif]
        by_cases hc : (i - 1) / 2 = pos
        -- the other child
        · rw [hc, Equiv.swap_apply_left]
          exact hfirst.2 i hi0 hilt hc
        · rw [Equiv.swap_apply_of_ne_of_ne hc hpf]
          exact ho.off i hi0 hilt hlo hc
  · intro _ hlo i hi0 hilt hc
    rw [swap_size] at hilt
    rw [hchild] at hlo ⊢
    rw [before_swap hpos hlt, Equiv.swap_apply_left,
      Equiv.swap_apply_of_ne_of_ne (by omega) (by omega)]
    have hn := ho.off i hi0 hilt (by omega) (by omega)
    rw [hc] at hn
    exact hn

/-- A sinking item that neither child comes before leaves the places from `lo` in order. -/
theorem DownOrder.stop (ho : h.DownOrder lo pos) (hi : h.Indexed) (hpos : pos < h.items.size)
    (hleast : h.least pos = pos) : h.OrderedFrom lo := by
  intro i hi0 hilt hlo
  by_cases hc : (i - 1) / 2 = pos
  · have hn := (least_first hi hpos).2 i hi0 hilt hc
    rw [hleast] at hn
    rw [hc]
    exact hn
  · exact ho.off i hi0 hilt hlo hc

omit [Std.TransCmp (Weight.order : ω → ω → Ordering)] in
/-- Sinking rearranges the heap, by the one exchange of each turn. -/
theorem siftDown_rearranged (hi : h.Indexed) (pos : Nat) : Rearranged h (h.siftDown pos) := by
  induction h, pos using siftDown.induct with
  | case1 h pos first hleast =>
    rw [siftDown, if_pos hleast]
    exact .refl hi
  | case2 h pos first hne ih =>
    rw [siftDown, if_neg hne]
    -- a position with a child in the heap is itself in the heap
    obtain ⟨-, hgt, hlt⟩ := least_child h pos hne
    have hr := swap_rearranged hi (Nat.lt_trans hgt hlt) hlt
    exact hr.trans (ih hr.indexed)

/-- Sinking puts the places from `lo` in order, when only the path downwards was not. -/
theorem siftDown_ordered (hi : h.Indexed) (hpos : pos < h.items.size)
    (ho : h.DownOrder lo pos) : (h.siftDown pos).OrderedFrom lo := by
  induction h, pos using siftDown.induct with
  | case1 h pos first hleast =>
    rw [siftDown, if_pos hleast]
    exact ho.stop hi hpos hleast
  | case2 h pos first hne ih =>
    rw [siftDown, if_neg hne]
    have hlt := (least_child h pos hne).2.2
    have hr := swap_rearranged hi hpos hlt
    exact ih hr.indexed (by rw [hr.size]; exact hlt) (ho.move hi hne)

/-! ## The root -/

/-- In a heap in order no item comes before the one at the root. -/
theorem Ordered.root_first (ho : h.Ordered) (hi : h.Indexed) (i : Nat) (hilt : i < h.items.size) :
    ¬h.before i 0 = true := by
  induction i using Nat.strongRecOn with
  | ind i ih =>
    by_cases hi0 : i = 0
    · rw [hi0]
      exact before_irrefl h 0
    · have hq : (i - 1) / 2 < i := by omega
      exact not_before_pos_trans hi (by omega) (ho i (by omega) hilt (Nat.zero_le _))
        (ih _ hq (by omega))

end MinHeap

end Cochange
