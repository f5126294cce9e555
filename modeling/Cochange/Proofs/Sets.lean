import Mathlib.Data.Finset.Card
import Mathlib.Data.Finset.Dedup
import Mathlib.Data.List.Nodup
import Mathlib.Data.List.Sort
import Std.Data.ExtTreeSet

/-!
# Sets as lists

A set kept in order is told by its members. It lists each once (`nodup_toList`), in order
(`sorted_toList`), and made again from that list it is the same (`ofList_toList`). As a finite set
of the mathematical library it has the same members and the same size (`card_toFinset_toList`).

So it is with the entries of a map, and with all lists in the order of some keys
(`StrictlySorted.eq_of_mem_iff`, `StrictlySorted.sublist`), or of any comparison. Items that a
comparison tells apart are put in its order by sorting (`pairwise_lt_mergeSort`), and those before
which there are few come first (`mem_take_iff`). When a list is sorted by something else, items that
are sorted alike stay as they stood (`pairwise_mergeSort_of_pairwise`).
-/

namespace Cochange

/-! ## Comparisons -/

section Comparisons

variable {β : Type}

/-- Values are compared by something about them. -/
theorem transCmp_on {γ : Type} (cmp : γ → γ → Ordering) [Std.TransCmp cmp] (f : β → γ) :
    Std.TransCmp fun a b => cmp (f a) (f b) where
  eq_swap := Std.OrientedCmp.eq_swap
  isLE_trans := Std.TransCmp.isLE_trans

variable (cmp : β → β → Ordering) [Std.TransCmp cmp]

instance irrefl_lt : Std.Irrefl fun a b => cmp a b = .lt where
  irrefl a h := by
    have hself : cmp a a = .eq := Std.ReflCmp.compare_self
    rw [hself] at h
    cases h

instance antisymm_lt : Std.Antisymm fun a b => cmp a b = .lt where
  antisymm a b hab hba := by
    have hswap : cmp b a = (cmp a b).swap := Std.OrientedCmp.eq_swap
    rw [hswap, hab] at hba
    cases hba

/-- Of two elements one is at most the other. -/
theorem isLE_total (a b : β) : (cmp a b).isLE || (cmp b a).isLE := by
  have hswap : cmp b a = (cmp a b).swap := Std.OrientedCmp.eq_swap
  rw [hswap]
  cases cmp a b <;> rfl

/-- Items that are all different to a comparison are put in its order by sorting. -/
theorem pairwise_lt_mergeSort {l : List β} (hl : l.Pairwise fun a b => cmp a b ≠ .eq) :
    (l.mergeSort fun a b => (cmp a b).isLE).Pairwise fun a b => cmp a b = .lt := by
  have htrans : ∀ a b c : β, (cmp a b).isLE → (cmp b c).isLE → (cmp a c).isLE :=
    fun _ _ _ => Std.TransCmp.isLE_trans
  have hsorted := List.pairwise_mergeSort htrans (isLE_total cmp) l
  have hswap : ∀ {a b : β}, cmp a b ≠ .eq → cmp b a ≠ .eq :=
    fun hne he => hne (Std.OrientedCmp.eq_symm he)
  have hdistinct := ((List.mergeSort_perm l fun a b => (cmp a b).isLE).pairwise_iff hswap).mpr hl
  refine (hsorted.and hdistinct).imp fun {a b} h => ?_
  cases hab : cmp a b with
  | lt => rfl
  | eq => exact absurd hab h.2
  | gt =>
    rw [hab] at h
    cases h.1

/-- In a strict order an item is among the first as long as few enough come before it. -/
theorem mem_take_iff {l : List β} (hl : l.Pairwise fun a b => cmp a b = .lt) {a : β} :
    ∀ n, a ∈ l.take n ↔ a ∈ l ∧ (l.filter fun b => cmp b a = .lt).length < n := by
  induction l with
  | nil =>
    intro n
    rw [List.take_nil]
    exact iff_of_false List.not_mem_nil fun h => List.not_mem_nil h.1
  | cons b bs ih =>
    obtain ⟨hb, hbs⟩ := List.pairwise_cons.mp hl
    intro n
    cases n with
    | zero => exact iff_of_false List.not_mem_nil fun h => Nat.not_lt_zero _ h.2
    | succ n =>
      rw [List.take_succ_cons, List.mem_cons, List.mem_cons, ih hbs]
      by_cases hab : a = b
      · subst hab
        have hnone : ((a :: bs).filter fun b => cmp b a = .lt) = [] := by
          refine List.filter_eq_nil_iff.mpr fun d hd hlt => ?_
          rw [decide_eq_true_eq] at hlt
          rcases List.mem_cons.mp hd with rfl | hd
          · exact (irrefl_lt cmp).irrefl d hlt
          · exact (irrefl_lt cmp).irrefl a (Std.TransCmp.lt_trans (hb d hd) hlt)
        rw [hnone]
        exact iff_of_true (Or.inl rfl) ⟨Or.inl rfl, Nat.succ_pos n⟩
      · rw [or_iff_right hab, or_iff_right hab]
        refine and_congr_right fun ha => ?_
        have hbefore : ((b :: bs).filter fun d => cmp d a = .lt) =
            b :: bs.filter fun d => cmp d a = .lt :=
          List.filter_cons_of_pos (decide_eq_true (hb a ha))
        rw [hbefore, List.length_cons, Nat.succ_lt_succ_iff]

end Comparisons

/-! ## Sets and lists in order -/

variable {α : Type} [Ord α] [Std.TransOrd α] [Std.LawfulEqOrd α]

/-- A set lists each of its elements once. -/
theorem nodup_toList (s : Std.ExtTreeSet α) : s.toList.Nodup :=
  Std.ExtTreeSet.distinct_toList.imp fun hab he => hab (Std.compare_eq_iff_eq.mpr he)

omit [Std.LawfulEqOrd α] in
/-- The set of a list has the elements of the list. -/
theorem mem_ofList_iff [BEq α] [Std.LawfulBEqOrd α] [LawfulBEq α] {l : List α} {a : α} :
    a ∈ (Std.ExtTreeSet.ofList l : Std.ExtTreeSet α) ↔ a ∈ l := by
  rw [Std.ExtTreeSet.mem_ofList, List.contains_iff_mem]

/-- A set made from its members is the same set. -/
theorem ofList_toList [BEq α] [Std.LawfulBEqOrd α] [LawfulBEq α] (s : Std.ExtTreeSet α) :
    Std.ExtTreeSet.ofList s.toList = s := by
  refine Std.ExtTreeSet.ext_mem fun a => ?_
  rw [mem_ofList_iff, Std.ExtTreeSet.mem_toList]

theorem card_toFinset_toList [DecidableEq α] (s : Std.ExtTreeSet α) :
    s.toList.toFinset.card = s.size := by
  rw [List.toFinset_card_of_nodup (nodup_toList s), Std.ExtTreeSet.length_toList]

/-- Items stand in the order of their keys, one for each key. -/
def StrictlySorted {β : Type} (key : β → α) (l : List β) : Prop :=
  l.Pairwise fun a b => compare (key a) (key b) = .lt

omit [Std.LawfulEqOrd α] in
/-- A set lists its elements in order. -/
theorem sorted_toList (s : Std.ExtTreeSet α) : StrictlySorted id s.toList := by
  have hordered : s.toList.Pairwise fun a b => compare a b = .lt := Std.ExtTreeSet.ordered_toList
  exact hordered

/-- The first of the members in order is the smallest. -/
theorem min?_of_toList {s : Std.ExtTreeSet α} {a : α} {as : List α} (h : s.toList = a :: as) :
    s.min? = some a := by
  have hsorted := sorted_toList s
  rw [h] at hsorted
  refine Std.ExtTreeSet.min?_eq_some_iff_mem_and_forall.mpr ⟨?_, fun k hk => ?_⟩
  · rw [← Std.ExtTreeSet.mem_toList, h]
    exact List.mem_cons_self
  · rw [← Std.ExtTreeSet.mem_toList, h] at hk
    rcases List.mem_cons.mp hk with rfl | hk
    · rw [Std.ReflOrd.compare_self]
      rfl
    · have hlt : compare a k = .lt := List.rel_of_pairwise_cons hsorted hk
      rw [hlt]
      rfl

omit [Std.LawfulEqOrd α] in
/-- In strict order no key is met twice. -/
theorem StrictlySorted.nodup_map {β : Type} {key : β → α} {l : List β}
    (hl : StrictlySorted key l) : (l.map key).Nodup := by
  refine List.pairwise_map.mpr (hl.imp fun hab he => ?_)
  rw [he, Std.ReflOrd.compare_self] at hab
  cases hab

omit [Std.LawfulEqOrd α] in
/-- Items in order are told by which they are. -/
theorem StrictlySorted.eq_of_mem_iff {β : Type} {key : β → α} {l l' : List β}
    (hl : StrictlySorted key l) (hl' : StrictlySorted key l') (h : ∀ a, a ∈ l ↔ a ∈ l') :
    l = l' := by
  have := transCmp_on compare key
  exact List.Pairwise.eq_of_mem_iff hl hl' h

omit [Std.LawfulEqOrd α] in
/-- Items in order stand in the same order among more items, if these are in order as well. -/
theorem StrictlySorted.sublist {β : Type} {key : β → α} {l m : List β} (hl : StrictlySorted key l)
    (hm : m.Pairwise fun a b => (compare (key a) (key b)).isLE) (h : ∀ a ∈ l, a ∈ m) :
    l.Sublist m := by
  induction m generalizing l with
  | nil => rw [List.eq_nil_iff_forall_not_mem.mpr fun a ha => List.not_mem_nil (h a ha)]
  | cons b m ih =>
    obtain ⟨hb, hm'⟩ := List.pairwise_cons.mp hm
    cases l with
    | nil => exact List.nil_sublist _
    | cons a l =>
      obtain ⟨ha, hl'⟩ := List.pairwise_cons.mp hl
      have hself : ∀ x ∈ l, x ≠ a := by
        intro x hx heq
        have hlt := ha x hx
        rw [heq, Std.ReflOrd.compare_self] at hlt
        cases hlt
      by_cases hab : a = b
      · subst hab
        refine (ih hl' hm' fun x hx => ?_).cons_cons a
        exact (List.mem_cons.mp (h x (List.mem_cons_of_mem a hx))).resolve_left (hself x hx)
      -- the first of the others is none of the items: the first item comes behind it
      · have ham : a ∈ m := (List.mem_cons.mp (h a List.mem_cons_self)).resolve_left hab
        refine (ih hl hm' fun x hx => ?_).cons b
        refine (List.mem_cons.mp (h x hx)).resolve_left fun hxb => ?_
        subst hxb
        have hlt := ha x ((List.mem_cons.mp hx).resolve_left (Ne.symm hab))
        have hle := hb a ham
        rw [Std.OrientedCmp.gt_iff_lt.mpr hlt] at hle
        cases hle

/-- A set made from a list in order lists the same. -/
theorem toList_ofList [BEq α] [Std.LawfulBEqOrd α] [LawfulBEq α] {l : List α}
    (hl : StrictlySorted id l) : (Std.ExtTreeSet.ofList l : Std.ExtTreeSet α).toList = l := by
  refine (sorted_toList (Std.ExtTreeSet.ofList l)).eq_of_mem_iff hl fun a => ?_
  rw [Std.ExtTreeSet.mem_toList, mem_ofList_iff]

/-- Items with different keys are put in order by sorting. -/
theorem strictlySorted_mergeSort {β : Type} {key : β → α} {l : List β}
    (hl : l.Pairwise fun a b => key a ≠ key b) :
    StrictlySorted key (l.mergeSort fun a b => (compare (key a) (key b)).isLE) := by
  have := transCmp_on compare key
  refine pairwise_lt_mergeSort (fun a b => compare (key a) (key b)) (hl.imp fun hne he => ?_)
  exact hne (Std.compare_eq_iff_eq.mp he)

/-! ## What sorting keeps, and parts of a list -/

section Sorting

variable {β : Type} {le : β → β → Bool}

/-- Sorting leaves items in place that are in order among each other. -/
theorem filter_mergeSort (htrans : ∀ a b c : β, le a b → le b c → le a c)
    (htotal : ∀ a b : β, le a b || le b a) {p : β → Bool}
    (hp : ∀ a b, p a = true → p b = true → le a b = true) (l : List β) :
    (l.mergeSort le).filter p = l.filter p := by
  have hordered : (l.filter p).Pairwise fun a b => le a b = true := by
    refine List.pairwise_of_forall_mem_list fun a ha b hb => ?_
    exact hp a b (List.mem_filter.mp ha).2 (List.mem_filter.mp hb).2
  have hsub := (List.sublist_mergeSort htrans htotal hordered List.filter_sublist).filter p
  simp only [List.filter_filter, Bool.and_self] at hsub
  refine (hsub.eq_of_length ?_).symm
  exact ((List.mergeSort_perm l le).filter p).length_eq.symm

/-- Items are behind sorting as well in the order in which they stood, as far as they are sorted
alike. -/
theorem pairwise_mergeSort_of_pairwise {R : β → β → Prop} {l : List β} (hl : l.Pairwise R)
    (htrans : ∀ a b c : β, le a b → le b c → le a c) (htotal : ∀ a b : β, le a b || le b a) :
    (l.mergeSort le).Pairwise fun a b => le a b = true ∧ (le b a = true → R a b) := by
  rw [List.pairwise_iff_forall_sublist]
  intro a b hab
  have hle : le a b = true :=
    List.pairwise_iff_forall_sublist.mp (List.pairwise_mergeSort htrans htotal l) hab
  refine ⟨hle, fun hba => ?_⟩
  have haa : le a a = true := by simpa using htotal a a
  -- what is sorted like `a` stands as it stood
  have hclass : (l.mergeSort le).filter (fun c => le a c && le c a) =
      l.filter fun c => le a c && le c a := by
    refine filter_mergeSort htrans htotal (fun c d hc hd => ?_) l
    rw [Bool.and_eq_true] at hc hd
    exact htrans c a d hc.2 hd.1
  have hsub := hab.filter fun c => le a c && le c a
  rw [hclass, List.filter_eq_self.mpr (by simp [haa, hle, hba])] at hsub
  exact List.pairwise_iff_forall_sublist.mp hl (hsub.trans List.filter_sublist)

/-- A list falls into the parts for different keys. -/
theorem flatMap_filter_perm {κ : Type} [DecidableEq κ] {key : β → κ} {ks : List κ} (hks : ks.Nodup) :
    ∀ {l : List β}, (∀ a ∈ l, key a ∈ ks) →
      (ks.flatMap fun k => l.filter (key · = k)).Perm l := by
  induction ks with
  | nil =>
    intro l hl
    rw [List.eq_nil_iff_forall_not_mem.mpr fun a ha => List.not_mem_nil (hl a ha)]
    exact List.Perm.refl []
  | cons k ks ih =>
    intro l hl
    obtain ⟨hk, hks⟩ := List.nodup_cons.mp hks
    have hrest : (ks.flatMap fun k' => l.filter (key · = k')) =
        ks.flatMap fun k' => (l.filter (key · ≠ k)).filter (key · = k') := by
      refine List.flatMap_congr fun k' hk' => ?_
      rw [List.filter_filter]
      refine List.filter_congr fun a _ => ?_
      by_cases ha : key a = k'
      · have hne : key a ≠ k := fun h => hk (h ▸ ha ▸ hk')
        simp [ha, ha ▸ hne]
      · simp [ha]
    have hcover : ∀ a ∈ l.filter (key · ≠ k), key a ∈ ks := by
      intro a ha
      obtain ⟨ha, hne⟩ := List.mem_filter.mp ha
      exact (List.mem_cons.mp (hl a ha)).resolve_left (of_decide_eq_true hne)
    rw [List.flatMap_cons, hrest]
    refine ((ih hks hcover).append_left _).trans ?_
    simpa using List.filter_append_perm (key · = k) l

/-- If with each item all before it are kept, then the kept ones come first. -/
theorem isPrefix_filter {p : β → Bool} {l : List β}
    (hl : l.Pairwise fun a b => p b = true → p a = true) : l.filter p <+: l := by
  induction l with
  | nil => exact List.prefix_rfl
  | cons a as ih =>
    obtain ⟨ha, has⟩ := List.pairwise_cons.mp hl
    by_cases hp : p a = true
    · rw [List.filter_cons_of_pos hp]
      exact (List.prefix_cons_inj a).mpr (ih has)
    · have hnone : (a :: as).filter p = [] := by
        refine List.filter_eq_nil_iff.mpr fun b hb hpb => hp ?_
        rcases List.mem_cons.mp hb with rfl | hb
        · exact hpb
        · exact ha b hb hpb
      rw [hnone]
      exact List.nil_prefix

end Sorting

end Cochange
