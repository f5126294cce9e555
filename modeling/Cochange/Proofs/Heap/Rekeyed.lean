import Cochange.Proofs.Heap.Bits
import Cochange.Proofs.Heap.Runs

/-!
# Changing keys and building anew

Instead of changing keys in a heap one can build it anew from the keys as they are in the end. Both
heaps hold the same items with the same keys, whatever these are (`contents_updateAll`), so both
give the same items, each once. That they give them in the same order takes that the heap stays
valid, and for this every update has to be one that the comparison of weights can tell
(`updateAll_valid`). A single update that it cannot tell is enough to leave an item behind another
one that it comes before (`drain_pair_update`).

For doubles these updates are known (`drain_updateAll`): 0.0 replaced by -0.0, and those to or from
NaN where the new key comes before the old one.
-/

namespace Cochange

namespace MinHeap

variable {ω : Type}

/-! ## Both heaps -/

/-- The keys after some updates, one after the other. Those of no item are left out. -/
def overwrite (keys : Array ω) (updates : List (Nat × ω)) : Array ω :=
  updates.foldl (fun keys u => keys.setIfInBounds u.1 u.2) keys

/-- Whether the new key and the old one are related in each update, in the array as it then is. -/
def EachChange (related : ω → ω → Prop) : List (Nat × ω) → Array ω → Prop
  | [], _ => True
  | u :: updates, keys =>
    (∀ old ∈ keys[u.1]?, related u.2 old) ∧
      EachChange related updates (keys.setIfInBounds u.1 u.2)

instance decidableEachChange (related : ω → ω → Prop) [DecidableRel related] :
    (updates : List (Nat × ω)) → (keys : Array ω) → Decidable (EachChange related updates keys)
  | [], _ => isTrue trivial
  | u :: updates, keys =>
    have := decidableEachChange related updates (keys.setIfInBounds u.1 u.2)
    inferInstanceAs (Decidable (_ ∧ _))

variable [Weight ω] {h : MinHeap ω} {keys : Array ω} {a b : ω}

/-- A heap after some updates, one after the other. -/
def updateAll (h : MinHeap ω) (updates : List (Nat × ω)) : MinHeap ω :=
  updates.foldl (fun h u => h.update u.1 u.2) h

/-- A heap that holds the keys of an array holds the changed array after the update. -/
theorem contents_update_of_keys (hi : h.Indexed) (hk : h.contents = fun x => keys[x]?) (x : Nat)
    (a : ω) : (h.update x a).contents = fun y => (keys.setIfInBounds x a)[y]? := by
  rw [hi.contents_update, hk]
  funext y
  exact (getElem?_setIfInBounds keys x y a).symm

/-- Updates leave the items with the keys that they were given last. -/
theorem contents_updateAll (updates : List (Nat × ω)) : ∀ {h : MinHeap ω} {keys : Array ω},
    h.Indexed → (h.contents = fun x => keys[x]?) →
      (h.updateAll updates).Indexed ∧
        (h.updateAll updates).contents = fun x => (overwrite keys updates)[x]? := by
  induction updates with
  | nil => exact fun hi hk => ⟨hi, hk⟩
  | cons u updates ih =>
    intro h keys hi hk
    exact ih (checkedUpdate_eq hi u.1 u.2).2 (contents_update_of_keys hi hk u.1 u.2)

variable [Std.TransCmp (Weight.order : ω → ω → Ordering)]

/-- A run of changes that the comparison sees keeps the heap in order. -/
theorem updateAll_valid (updates : List (Nat × ω)) : ∀ {h : MinHeap ω} {keys : Array ω},
    h.Valid → (h.contents = fun x => keys[x]?) → EachChange Comparable updates keys →
      (h.updateAll updates).Valid := by
  induction updates with
  | nil => exact fun hv _ _ => hv
  | cons u updates ih =>
    intro h keys hv hk hok
    have hadmits : h.Admits (.update u.1 u.2) := by
      rintro x a b ⟨⟩ hb
      rw [hk] at hb
      exact hok.1 b hb
    exact ih (perform_spec hv hadmits).1 (contents_update_of_keys hv.indexed hk u.1 u.2) hok.2

/-- What is taken out of a heap, and in which order, is told by its contents. -/
theorem Valid.eq_drain (hv : h.Valid) {l : List (Nat × ω)}
    (hsorted : l.Pairwise fun p q => rankOrder (p.2, p.1) (q.2, q.1) = .lt)
    (hmem : ∀ p, p ∈ l ↔ h.contents p.1 = some p.2) : l = h.drain := by
  have := transCmp_on (rankOrder : ω × Nat → ω × Nat → Ordering) fun p : Nat × ω => (p.2, p.1)
  obtain ⟨hsorted', hmem'⟩ := drain_spec hv
  exact List.Pairwise.eq_of_mem_iff hsorted hsorted' fun p => (hmem p).trans (hmem' p).symm

/-- The updated heap and the one that is built anew give the same items, and they give them in the
same order if the updates can be told. -/
theorem drain_updateAll_of_comparable (keys : Array ω) (updates : List (Nat × ω)) :
    ((ofKeys keys).updateAll updates).drain.Perm (ofKeys (overwrite keys updates)).drain ∧
      (EachChange Comparable updates keys →
        ((ofKeys keys).updateAll updates).drain = (ofKeys (overwrite keys updates)).drain) := by
  have hv := (ofKeys_spec keys).1
  have hv' := (ofKeys_spec (overwrite keys updates)).1
  obtain ⟨hi, hcontents⟩ := contents_updateAll updates hv.indexed (contents_ofKeys keys)
  have hk := hcontents.trans (contents_ofKeys (overwrite keys updates)).symm
  refine ⟨?_, fun hok => ?_⟩
  · obtain ⟨hnodup, hmem⟩ := drain_contents hi
    obtain ⟨hnodup', hmem'⟩ := drain_contents hv'.indexed
    exact (List.perm_ext_iff_of_nodup hnodup.of_map hnodup'.of_map).mpr fun p => by
      rw [hmem, hmem', hk]
  · obtain ⟨hsorted, hmem⟩ := drain_spec (updateAll_valid updates hv (contents_ofKeys keys) hok)
    exact hv'.eq_drain hsorted (hk ▸ hmem)

/-! ## Updates that cannot be told -/

omit [Std.TransCmp (Weight.order : ω → ω → Ordering)] in
/-- An item before its children stays where it is. -/
theorem siftDown_of_least {pos : Nat} (hl : h.least pos = pos) : h.siftDown pos = h := by
  rw [siftDown, if_pos hl]

omit [Std.TransCmp (Weight.order : ω → ω → Ordering)] in
/-- Two items that were not put in order are taken out as they stand. -/
theorem drain_unordered_pair (a b : ω) : (unordered #[b, a]).drain = [(0, b), (1, a)] := by
  have hrest : (((unordered #[b, a]).swap 0 1).dropLast 0).siftDown 0 =
      ((unordered #[b, a]).swap 0 1).dropLast 0 :=
    siftDown_of_least (by simp [least, dropLast, swap_size, unordered])
  have hfirst : (unordered #[b, a]).pop? =
      some ((0, b), (((unordered #[b, a]).swap 0 1).dropLast 0).siftDown 0) := pop?_of_root rfl rfl
  have hsecond : (((unordered #[b, a]).swap 0 1).dropLast 0).pop? = some ((1, a), _) :=
    pop?_of_root rfl rfl
  show drainWithin 2 _ = _
  rw [drainWithin, hfirst, hrest]
  dsimp only
  rw [drainWithin, hsecond]
  rfl

/-- A key that comes before the old one without being less leaves its item where it is: behind an
item with the old key, which is then taken out first. -/
theorem drain_pair_update (hless : Weight.lt a b = false) (hbefore : Weight.order a b = .lt) :
    ((ofKeys #[b, b]).update 1 a).drain = [(0, b), (1, a)] ∧
      (ofKeys #[b, a]).drain = [(1, a), (0, b)] := by
  have hself : Weight.order b b = .eq := Std.ReflCmp.compare_self
  constructor
  · have hbuilt : ofKeys #[b, b] = unordered #[b, b] := by
      have hleast : (unordered #[b, b]).least 0 = 0 := by
        simp [least, before, itemBefore, unordered, hself]
      have hsift : ofKeys #[b, b] = (unordered #[b, b]).siftDown 0 := by
        simp [ofKeys, unordered, List.range_succ]
      rw [hsift, siftDown_of_least hleast]
    have hposition : (unordered #[b, b]).position? 1 = some 1 := by
      rw [position?_unordered]
      rfl
    have hkey : (unordered #[b, b]).key? 1 = some b := rfl
    rw [hbuilt, update_of_position hposition hkey, hless, if_neg Bool.false_ne_true,
      siftDown_of_least (by simp [least, setKey, unordered])]
    exact drain_unordered_pair a b
  · refine ((ofKeys_spec #[b, a]).1.eq_drain (List.pairwise_pair.mpr ?_) fun p => ?_).symm
    · show (Weight.order a b).then _ = .lt
      rw [hbefore]
      rfl
    · rw [contents_ofKeys]
      obtain ⟨x, c⟩ := p
      rcases x with _ | _ | x
      · simp [eq_comm]
      · simp [eq_comm]
      · simp

/-! ## Doubles -/

open DoubleBits (ComesUnseen)

/-- A heap of doubles with changed keys and one that is built from the final keys give the same
items with the same keys, each once, whatever bits these keys have. They give them in the same order
if no update puts -0.0 in the place of 0.0, or, where NaN is among the two, a key in the place of
one that it comes before. Any such update may cost the order: an item with the old key is taken out
first, though the other one comes before it. -/
theorem drain_updateAll (keys : Array DoubleBits) (updates : List (Nat × DoubleBits)) :
    ((ofKeys keys).updateAll updates).drain.Perm (ofKeys (overwrite keys updates)).drain ∧
    (EachChange (fun new old => ¬ComesUnseen new old) updates keys →
      ((ofKeys keys).updateAll updates).drain = (ofKeys (overwrite keys updates)).drain) ∧
    ∀ new old : DoubleBits, ComesUnseen new old →
      ((ofKeys #[old, old]).updateAll [(1, new)]).drain = [(0, old), (1, new)] ∧
      (ofKeys (overwrite #[old, old] [(1, new)])).drain = [(1, new), (0, old)] := by
  have hseen : (Comparable : DoubleBits → DoubleBits → Prop) =
      fun new old => ¬ComesUnseen new old :=
    funext₂ fun _ _ => propext DoubleBits.comparable_iff
  obtain ⟨hperm, hsame⟩ := drain_updateAll_of_comparable keys updates
  refine ⟨hperm, fun hok => hsame (hseen ▸ hok), fun new old hunseen => ?_⟩
  exact drain_pair_update hunseen.not_lt
    (Int.compare_eq_lt.mpr (DoubleBits.orderKey_lt_iff.mpr (Or.inr hunseen)))

/-- The NaN that has some bits below those that make it one. -/
def nan (payload : UInt64) : DoubleBits :=
  ⟨0x7ff8000000000000 ||| payload⟩

/-- Updates from a number to a positive NaN, from a negative NaN to a number, and to -0.0 from what
is not 0.0 can be told. -/
theorem drain_updateAll_zeros :
    ((ofKeys #[1.0, -nan 1, 2.0]).updateAll [(0, nan 1), (1, 0.0), (2, -0.0)]).drain =
      [(2, -0.0), (1, 0.0), (0, nan 1)] := by
  have hfinal : (ofKeys (overwrite #[1.0, -nan 1, 2.0] [(0, nan 1), (1, 0.0), (2, -0.0)])).drain =
      [(2, -0.0), (1, 0.0), (0, nan 1)] := by decide +kernel
  rw [← hfinal]
  exact (drain_updateAll #[1.0, -nan 1, 2.0] [(0, nan 1), (1, 0.0), (2, -0.0)]).2.1
    (by decide +kernel)

/-- The item of which the key was NaN stays behind one with a larger key. -/
theorem drain_update_nan :
    ((ofKeys #[2.0, nan 0]).updateAll [(1, 1.0)]).drain = [(0, 2.0), (1, 1.0)] ∧
      (ofKeys (overwrite #[2.0, nan 0] [(1, 1.0)])).drain = [(1, 1.0), (0, 2.0)] := by
  decide +kernel

/-- An item is left behind as well if its key becomes a negative NaN. -/
example : ((ofKeys #[2.0, 3.0]).updateAll [(1, -nan 0)]).drain = [(0, 2.0), (1, -nan 0)] ∧
    (ofKeys (overwrite #[2.0, 3.0] [(1, -nan 0)])).drain = [(1, -nan 0), (0, 2.0)] := by
  decide +kernel

/-- For the values that the program computes with the updates to beware of are those that put a
number in the place of NaN, or -0.0 in that of 0.0. -/
theorem drain_updateAll_floats (keys : Array Float) (updates : List (Nat × Float))
    (hok : EachChange
      (fun new old => ¬(new.isNaN = false ∧ old.isNaN = true ∨ new = -0.0 ∧ old = 0.0))
      updates keys) :
    ((ofKeys keys).updateAll updates).drain = (ofKeys (overwrite keys updates)).drain := by
  have hseen : (fun new old : Float =>
      ¬(new.isNaN = false ∧ old.isNaN = true ∨ new = -0.0 ∧ old = 0.0)) = Comparable := by
    funext new old
    rw [← DoubleBits.comesUnseen_ofFloat, ← DoubleBits.comparable_iff,
      DoubleBits.comparable_ofFloat]
  rw [hseen] at hok
  exact (drain_updateAll_of_comparable keys updates).2 hok

end MinHeap

end Cochange
