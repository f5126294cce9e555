import Cochange.Blob.Search
import Cochange.Proofs.Sets

/-!
# Labels and their numbers

A table made from a list of keys holds the last position of each key in the list
(`ofList_zipIdx_eq_some_iff`), which is the only one if the keys are distinct
(`ofList_zipIdx_eq_some`). This is how the labels of a graph are numbered for the search, in
their order (`numbers_eq_some`, `number_lt`), and how the position of a node is found
(`lastPositions_eq_some`), if no two nodes have the same label. A table of degrees starts with
the same labels, and so does one of colors (`getElem?_uniform`).
-/

namespace Cochange

/-- What stands somewhere in a list with one more item stood there before, or is that item. -/
theorem getElem?_concat_eq_some {α : Type} {as : List α} {a b : α} {j : Nat} :
    (as ++ [a])[j]? = some b ↔ as[j]? = some b ∨ (j = as.length ∧ a = b) := by
  rw [List.getElem?_append]
  split
  next hj => exact (or_iff_left fun h => absurd h.1 (Nat.ne_of_lt hj)).symm
  next hj =>
    rw [List.getElem?_eq_none (Nat.not_lt.mp hj), List.getElem?_singleton,
      Option.ite_none_right_eq_some]
    simp only [reduceCtorEq, false_or, Option.some.injEq]
    exact and_congr_left' (by omega)

/-- A table made from a list of keys holds the position of the last of each. -/
theorem ofList_zipIdx_eq_some_iff {ks : List String} {k : String} : ∀ {i : Nat},
    (Std.ExtTreeMap.ofList ks.zipIdx : Std.ExtTreeMap String Nat)[k]? = some i ↔
      ks[i]? = some k ∧ ∀ j, ks[j]? = some k → j ≤ i := by
  induction ks using List.reverseRecOn with
  | nil => exact fun {i} => iff_of_false (by simp) fun h => by simp at h
  | append_singleton ks a ih =>
    intro i
    have hlast : (Std.ExtTreeMap.ofList (ks ++ [a]).zipIdx : Std.ExtTreeMap String Nat) =
        (Std.ExtTreeMap.ofList ks.zipIdx).insert a ks.length := by
      rw [List.zipIdx_append, Std.ExtTreeMap.ofList_eq_foldl, Std.ExtTreeMap.ofList_eq_foldl,
        List.foldl_append, Nat.zero_add]
      rfl
    rw [hlast, Std.ExtTreeMap.getElem?_insert]
    simp only [getElem?_concat_eq_some, Std.compare_eq_iff_eq]
    by_cases ha : a = k
    · rw [if_pos ha, Option.some.injEq]
      constructor
      · intro hi
        refine ⟨Or.inr ⟨hi.symm, ha⟩, fun j hj => ?_⟩
        rcases hj with hj | ⟨hj, -⟩
        · have hlt := (List.getElem?_eq_some_iff.mp hj).1
          omega
        · omega
      · intro ⟨hi, hmax⟩
        have hle := hmax ks.length (Or.inr ⟨rfl, ha⟩)
        rcases hi with hi | ⟨hi, -⟩
        · have hlt := (List.getElem?_eq_some_iff.mp hi).1
          omega
        · exact hi.symm
    · rw [if_neg ha, ih]
      simp only [ha, and_false, or_false]

/-- It holds every key of the list, and no other. -/
theorem exists_ofList_zipIdx_iff {ks : List String} {k : String} :
    (∃ i, (Std.ExtTreeMap.ofList ks.zipIdx : Std.ExtTreeMap String Nat)[k]? = some i) ↔ k ∈ ks := by
  rw [← Option.isSome_iff_exists, ← Std.ExtTreeMap.mem_iff_isSome_getElem?,
    Std.ExtTreeMap.mem_ofList, List.zipIdx_map_fst, List.contains_iff_mem]

/-- A table made from a list of distinct keys holds the position of each of them. -/
theorem ofList_zipIdx_eq_some {ks : List String} (hks : ks.Nodup) {k : String} {i : Nat} :
    (Std.ExtTreeMap.ofList ks.zipIdx : Std.ExtTreeMap String Nat)[k]? = some i ↔
      ks[i]? = some k := by
  rw [ofList_zipIdx_eq_some_iff]
  refine and_iff_left_of_imp fun hi j hj => Nat.le_of_eq ?_
  exact (List.getElem?_inj (List.getElem?_eq_some_iff.mp hj).1 hks).mp (hj.trans hi.symm)

namespace Graph

variable {ω : Type} {g : Graph ω} {l l' : String} {i j : Nat}

/-! ## Positions -/

/-- No two nodes have the same label. -/
def Distinct (g : Graph ω) : Prop :=
  (g.nodes.map (·.label)).Nodup

instance decidable_distinct (g : Graph ω) : Decidable g.Distinct :=
  inferInstanceAs (Decidable (g.nodes.map (·.label)).Nodup)

/-- The labels of a graph are those of its nodes. -/
theorem mem_labels : l ∈ g.labels ↔ ∃ n ∈ g.nodes, n.label = l := by
  rw [labels, mem_ofList_iff, List.mem_map]

/-- A table may start with the same value for each label. -/
theorem getElem?_uniform {α : Type} (g : Graph ω) (v : α) (l : String) :
    (g.nodes.foldl (fun d n => d.insert n.label v) (∅ : Std.ExtTreeMap String α))[l]? =
      if l ∈ g.labels then some v else none := by
  have hfold : ∀ (nodes : List Node) (d : Std.ExtTreeMap String α),
      (nodes.foldl (fun d n => d.insert n.label v) d)[l]? =
        if ∃ n ∈ nodes, n.label = l then some v else d[l]? := by
    intro nodes
    induction nodes with
    | nil => simp
    | cons n nodes ih =>
      intro d
      rw [List.foldl_cons, ih, Std.ExtTreeMap.getElem?_insert]
      simp only [List.exists_mem_cons_iff, Std.compare_eq_iff_eq]
      by_cases hl : ∃ n ∈ nodes, n.label = l
      · rw [if_pos hl, if_pos (Or.inr hl)]
      · rw [if_neg hl]
        exact if_congr (or_iff_left hl).symm rfl rfl
  rw [hfold, Std.ExtTreeMap.getElem?_empty]
  exact if_congr mem_labels.symm rfl rfl

theorem lastPositions_eq (g : Graph ω) :
    g.lastPositions = Std.ExtTreeMap.ofList (g.nodes.map (·.label)).zipIdx := by
  rw [Std.ExtTreeMap.ofList_eq_foldl, List.zipIdx_map, List.foldl_map]
  rfl

/-- Under a label the position of the last node with it is found. -/
theorem lastPositions_eq_some_iff :
    g.lastPositions[l]? = some i ↔ (∃ n, g.nodes[i]? = some n ∧ n.label = l) ∧
      ∀ j n, g.nodes[j]? = some n → n.label = l → j ≤ i := by
  rw [lastPositions_eq, ofList_zipIdx_eq_some_iff]
  simp only [List.getElem?_map, Option.map_eq_some_iff]
  exact and_congr_right fun _ =>
    ⟨fun h j n hn hl => h j ⟨n, hn, hl⟩, fun h j ⟨n, hn, hl⟩ => h j n hn hl⟩

/-- At the last position of a label stands a node with it. -/
theorem exists_node (hl : g.lastPositions[l]? = some i) : ∃ n, g.nodes[i]? = some n ∧ n.label = l :=
  (lastPositions_eq_some_iff.mp hl).1

/-- Every label has a position, and nothing else has. -/
theorem exists_position_iff : (∃ i, g.lastPositions[l]? = some i) ↔ l ∈ g.labels := by
  rw [lastPositions_eq, exists_ofList_zipIdx_iff, List.mem_map, mem_labels]

/-- A position belongs to one label only. -/
theorem lastPositions_inj (hl : g.lastPositions[l]? = some i)
    (hl' : g.lastPositions[l']? = some i) : l = l' := by
  obtain ⟨n, hn, rfl⟩ := exists_node hl
  obtain ⟨n', hn', rfl⟩ := exists_node hl'
  rw [hn] at hn'
  rw [Option.some.inj hn']

/-- With distinct labels the position of a node is found under its label. -/
theorem lastPositions_eq_some (hg : g.Distinct) :
    g.lastPositions[l]? = some i ↔ ∃ n, g.nodes[i]? = some n ∧ n.label = l := by
  rw [lastPositions_eq, ofList_zipIdx_eq_some hg, List.getElem?_map, Option.map_eq_some_iff]

/-! ## Numbers -/

/-- The number of a label is its place among the labels in order. -/
theorem numbers_eq_some : g.numbers[l]? = some i ↔ g.labels.toList[i]? = some l :=
  ofList_zipIdx_eq_some (nodup_toList g.labels)

/-- Every label of a node has a number, and nothing else has. -/
theorem exists_number_iff : (∃ i, g.numbers[l]? = some i) ↔ l ∈ g.labels := by
  rw [← Std.ExtTreeSet.mem_toList, List.mem_iff_getElem?]
  simp only [numbers_eq_some]

/-- Different labels have different numbers. -/
theorem number_inj (hl : g.numbers[l]? = some i) (hl' : g.numbers[l']? = some i) : l = l' := by
  rw [numbers_eq_some] at hl hl'
  rw [hl] at hl'
  exact Option.some.inj hl'

/-- Labels are numbered in their order. -/
theorem number_lt (hl : g.numbers[l]? = some i) (hl' : g.numbers[l']? = some j)
    (hlt : compare l l' = .lt) : i < j := by
  obtain ⟨hi, rfl⟩ := List.getElem?_eq_some_iff.mp (numbers_eq_some.mp hl)
  obtain ⟨hj, rfl⟩ := List.getElem?_eq_some_iff.mp (numbers_eq_some.mp hl')
  refine Nat.lt_of_not_le fun hji => ?_
  rcases Nat.lt_or_eq_of_le hji with h | h
  · have hgt := List.pairwise_iff_getElem.mp Std.ExtTreeSet.ordered_toList j i hj hi h
    rw [Std.OrientedCmp.gt_iff_lt.mpr hgt] at hlt
    exact absurd hlt (by simp)
  · subst h
    exact absurd (Std.ReflCmp.compare_self.symm.trans hlt) (by simp)

/-- The members of a component are the numbers of its labels. -/
theorem mem_membersOf {c : LabelSet} :
    i ∈ membersOf g.numbers c ↔ ∃ l ∈ c, g.numbers[l]? = some i := by
  rw [membersOf, List.mem_filterMap]
  simp only [Std.ExtTreeSet.mem_toList]

/-- The members of a component are in order, and there are labels with their numbers. -/
theorem membersOf_sorted (g : Graph ω) (c : LabelSet) :
    (membersOf g.numbers c).Pairwise (· < ·) := by
  rw [membersOf, List.pairwise_filterMap]
  exact Std.ExtTreeSet.ordered_toList.imp fun hlt i hi j hj => number_lt hi hj hlt

theorem lt_of_mem_membersOf {c : LabelSet} (hi : i ∈ membersOf g.numbers c) :
    i < g.labels.toList.toArray.size := by
  obtain ⟨l, -, hl⟩ := mem_membersOf.mp hi
  rw [List.size_toArray]
  exact (List.getElem?_eq_some_iff.mp (numbers_eq_some.mp hl)).1

end Graph

end Cochange
