import Cochange.Proofs.Graph.Induced

/-!
# Components by any merging

The components are found by merging positions along the edges. What the merging gives for each
position is a representative, and nothing is asked of it but that two positions have the same one
exactly if the merged pairs relate them (`Merging.Sound`). Which of the positions of a class it is
does not matter: the sets of labels are the same (`mem_componentsBy`), and they are put in the
order of their smallest labels, of which no two are equal (`componentsBy_sorted`). So every sound
merging gives the same list.

What is in the list can be said without any merging. It holds the sets of all labels to which paths
lead from one of them (`mem_components_iff_paths`), and these paths depend on nothing but which
labels there are and which two of them some edge joins (`components_connected`).
-/

namespace Cochange

/-- A way to merge the numbers below a bound along some pairs: the representative of each. -/
abbrev Merging :=
  (bound : Nat) → (pairs : List (Nat × Nat)) → Nat → Nat

/-- Two numbers have the same representative exactly if the pairs relate them. -/
def Merging.Sound (m : Merging) : Prop :=
  ∀ bound pairs, (∀ xy ∈ pairs, xy.1 < bound ∧ xy.2 < bound) →
    ∀ x < bound, ∀ y < bound,
      (m bound pairs x = m bound pairs y ↔ Relation.EqvGen (fun a b => (a, b) ∈ pairs) x y)

/-- Merging by rank. -/
def Merging.byRank : Merging :=
  fun bound pairs => ((Partition.discrete bound).unionAll pairs).rootOf

/-- Merging by rank relates what the merged pairs relate. -/
theorem Merging.byRank_sound : Merging.byRank.Sound :=
  fun _ _ hlt _ _ _ _ => Partition.same_unionAll_discrete hlt

namespace Graph

variable {ω : Type} {g : Graph ω} {m : Merging} {c : LabelSet}

/-- The representative that a merging gives to a position. -/
def rootBy (m : Merging) (g : Graph ω) : Nat → Nat :=
  m g.nodes.length g.joinedPositions

/-- The labels of the nodes in each class of a merging, by its representative. -/
def classesBy (m : Merging) (g : Graph ω) : Std.ExtTreeMap Nat LabelSet :=
  labelsBy (g.rootBy m) g.nodes.zipIdx

/-- The components that a merging gives. -/
def componentsBy (m : Merging) (g : Graph ω) : List LabelSet :=
  ((g.classesBy m).toList.map (·.2)).mergeSort firstLabelLe

theorem components_eq_byRank (g : Graph ω) : g.components = g.componentsBy .byRank := rfl

/-! ## The sets -/

/-- A component holds the labels at all positions that have the representative of one of them. -/
theorem mem_componentsBy :
    c ∈ g.componentsBy m ↔ ∃ n ∈ g.nodes.zipIdx, ∀ l, l ∈ c ↔
      ∃ n' ∈ g.nodes.zipIdx, g.rootBy m n'.2 = g.rootBy m n.2 ∧ n'.1.label = l := by
  rw [componentsBy, List.mem_mergeSort, List.mem_map]
  constructor
  · intro ⟨⟨r, d⟩, hr, hdc⟩
    obtain rfl : d = c := hdc
    rw [Std.ExtTreeMap.mem_toList_iff_getElem?_eq_some] at hr
    obtain ⟨n, hn, rfl⟩ := exists_labelsBy_iff.mp ⟨d, hr⟩
    exact ⟨n, hn, mem_labelsBy hr⟩
  · intro ⟨n, hn, hc⟩
    obtain ⟨d, hd⟩ := exists_labelsBy_iff.mpr ⟨n, hn, rfl⟩
    exact ⟨_, Std.ExtTreeMap.mem_toList_iff_getElem?_eq_some.mpr hd,
      Std.ExtTreeSet.ext_mem fun l => (mem_labelsBy hd l).trans (hc l).symm⟩

/-- Every sound merging gives the same sets. -/
theorem mem_componentsBy_iff (hm : m.Sound) : c ∈ g.componentsBy m ↔ c ∈ g.components := by
  have hsame : ∀ n ∈ g.nodes.zipIdx, ∀ n' ∈ g.nodes.zipIdx,
      (g.rootBy m n'.2 = g.rootBy m n.2 ↔ g.rootBy .byRank n'.2 = g.rootBy .byRank n.2) := by
    intro n hn n' hn'
    have hlt := (List.getElem?_eq_some_iff.mp (List.mem_zipIdx_iff_getElem?.mp hn)).1
    have hlt' := (List.getElem?_eq_some_iff.mp (List.mem_zipIdx_iff_getElem?.mp hn')).1
    have hpairs := g.joinedPositions_lt
    exact (hm _ _ hpairs _ hlt' _ hlt).trans (Merging.byRank_sound _ _ hpairs _ hlt' _ hlt).symm
  rw [components_eq_byRank, mem_componentsBy, mem_componentsBy]
  refine exists_congr fun n => and_congr_right fun hn => forall_congr' fun l => ?_
  refine iff_congr Iff.rfl (exists_congr fun n' => and_congr_right fun hn' => ?_)
  rw [hsame n hn n' hn']

/-- The components are the sets of all labels to which paths lead from one of them. -/
theorem mem_components_iff_paths (hg : g.Distinct) :
    c ∈ g.components ↔ ∃ u ∈ g.labels, ∀ v, v ∈ c ↔ v ∈ g.labels ∧ g.Connected u v := by
  constructor
  · intro hc
    obtain ⟨u, hu⟩ := exists_mem_component hc
    exact ⟨u, mem_labels_of_mem_component hg hc hu, fun v => mem_component_iff hg hc hu⟩
  · intro ⟨u, hu, huv⟩
    obtain ⟨d, hd, hud⟩ := exists_component hg hu
    have hdc : d = c :=
      Std.ExtTreeSet.ext_mem fun v => (mem_component_iff hg hd hud).trans (huv v).symm
    exact hdc ▸ hd

/-! ## Their order -/

/-- Sets are compared by their smallest labels. -/
theorem firstLabelLe_eq (a b : LabelSet) : firstLabelLe a b = (compare a.min? b.min?).isLE := by
  unfold firstLabelLe
  cases a.min? with
  | none => cases b.min? <;> rfl
  | some x =>
    cases b.min? with
    | none => rfl
    | some y =>
      have hle : (compare x y).isLE = true ↔ x ≤ y :=
        isLE_compareOfLessAndEq String.le_antisymm String.not_le String.le_total
      exact (Bool.eq_iff_iff.mpr (hle.trans decide_eq_true_iff.symm)).symm

/-- The components are the classes in the order of their smallest labels. -/
theorem componentsBy_eq_mergeSort (g : Graph ω) (m : Merging) :
    g.componentsBy m = ((g.classesBy m).toList.map (·.2)).mergeSort fun a b =>
      (compare a.min? b.min?).isLE := by
  unfold componentsBy
  exact congrArg _ (funext₂ firstLabelLe_eq)

/-- A component with a label has a smallest one. -/
theorem exists_min? {l : String} (hl : l ∈ c) : ∃ a, c.min? = some a := by
  refine Option.ne_none_iff_exists'.mp fun hnone => ?_
  rw [Std.ExtTreeSet.min?_eq_none_iff] at hnone
  exact Std.ExtTreeSet.not_mem_empty (hnone ▸ hl)

/-- Different components have different smallest labels, so they are put in a strict order. -/
theorem componentsBy_sorted (hg : g.Distinct) (m : Merging) :
    StrictlySorted (·.min?) (g.componentsBy m) := by
  rw [componentsBy_eq_mergeSort]
  refine strictlySorted_mergeSort (List.pairwise_map.mpr ?_)
  refine Std.ExtTreeMap.distinct_keys_toList.imp_of_mem fun {p q} hp hq hne heq => ?_
  rw [Std.ExtTreeMap.mem_toList_iff_getElem?_eq_some] at hp hq
  -- the label of a node of the first class, and so the smallest label, would be in both
  obtain ⟨n, hn, hroot⟩ := exists_labelsBy_iff.mp ⟨p.2, hp⟩
  obtain ⟨l, hl⟩ := exists_min? ((mem_labelsBy hp n.1.label).mpr ⟨n, hn, hroot, rfl⟩)
  obtain ⟨a, ha, hap, hal⟩ := (mem_labelsBy hp l).mp (Std.ExtTreeSet.min?_mem hl)
  obtain ⟨b, hb, hbq, hbl⟩ := (mem_labelsBy hq l).mp (Std.ExtTreeSet.min?_mem (heq ▸ hl))
  have hposition : ∀ n ∈ g.nodes.zipIdx, n.1.label = l → g.lastPositions[l]? = some n.2 :=
    fun n hn hnl => (lastPositions_eq_some hg).mpr ⟨n.1, List.mem_zipIdx_iff_getElem?.mp hn, hnl⟩
  have hab : a.2 = b.2 :=
    Option.some.inj ((hposition a ha hal).symm.trans (hposition b hb hbl))
  refine hne (Std.compare_eq_iff_eq.mpr ?_)
  rw [← hap, ← hbq, hab]

/-- Every sound merging gives the same components in the same order. -/
theorem componentsBy_eq (hg : g.Distinct) (hm : m.Sound) : g.componentsBy m = g.components :=
  (componentsBy_sorted hg m).eq_of_mem_iff (componentsBy_sorted hg .byRank) fun _ =>
    mem_componentsBy_iff hm

/-- The components come in the order of their smallest labels. -/
theorem components_pairwise (hg : g.Distinct) :
    g.components.Pairwise fun c d => ∃ a b, c.min? = some a ∧ d.min? = some b ∧ a < b := by
  have hsorted := componentsBy_sorted hg .byRank
  unfold StrictlySorted at hsorted
  refine hsorted.imp_of_mem fun {c d} hc hd hlt => ?_
  obtain ⟨u, hu⟩ := exists_mem_component hc
  obtain ⟨v, hv⟩ := exists_mem_component hd
  obtain ⟨a, ha⟩ := exists_min? hu
  obtain ⟨b, hb⟩ := exists_min? hv
  have hab : compare (some a) (some b) = .lt := ha ▸ hb ▸ hlt
  exact ⟨a, b, ha, hb, compareOfLessAndEq_eq_lt.mp hab⟩

/-! ## Paths -/

instance symm_adjacent : Std.Symm g.Adjacent where
  symm _ _ := Adjacent.symm

/-- Labels are connected if a path of edges leads from one to the other. -/
theorem connected_iff_path {u v : String} :
    g.Connected u v ↔ Relation.ReflTransGen g.Adjacent u v := by
  unfold Connected
  rw [Relation.EqvGen.eqvGen_eq_reflTransGen]

/-- Paths lead through edges between different labels. -/
theorem Connected.of_adjacent {ω' : Type} {g' : Graph ω'}
    (h : ∀ u v, u ≠ v → g.Adjacent u v → g'.Adjacent u v) {u v : String} (huv : g.Connected u v) :
    g'.Connected u v := by
  induction huv with
  | rel a b hab =>
    by_cases heq : a = b
    · exact heq ▸ .refl a
    · exact .rel a b (h a b heq hab)
  | refl a => exact .refl a
  | symm a b _ ih => exact .symm a b ih
  | trans a b c _ _ hab hbc => exact .trans a b c hab hbc

/-- Two graphs with the same labels have the same components if the same of them are joined by an
edge. -/
theorem components_eq_of_adjacent {ω' : Type} {g' : Graph ω'} (hg : g.Distinct) (hg' : g'.Distinct)
    (hlabels : g'.labels = g.labels)
    (h : ∀ u v, u ≠ v → (g'.Adjacent u v ↔ g.Adjacent u v)) : g'.components = g.components := by
  have hconnected : ∀ u v, g'.Connected u v ↔ g.Connected u v := fun u v =>
    ⟨.of_adjacent fun a b hne => (h a b hne).mp, .of_adjacent fun a b hne => (h a b hne).mpr⟩
  refine (componentsBy_sorted hg' .byRank).eq_of_mem_iff (componentsBy_sorted hg .byRank) fun c => ?_
  show c ∈ g'.components ↔ c ∈ g.components
  rw [mem_components_iff_paths hg', mem_components_iff_paths hg]
  simp only [hlabels, hconnected]

/-- The components of a graph with distinct labels are sets of its labels, none of them empty, and
each label is in exactly one. Two labels are in the same if and only if a path leads from one to the
other, each step of which is an edge between two nodes. They are listed in the order of their
smallest labels. Nothing else about the edges counts: another graph with the same labels, of which
an edge joins the same different ones, has the same components. Nor does it count how the classes
are merged, and which representatives they get. -/
theorem components_connected (g : Graph ω) (hg : g.Distinct) :
    (∀ c ∈ g.components, (∃ l, l ∈ c) ∧ ∀ l ∈ c, l ∈ g.labels) ∧
    (∀ l ∈ g.labels, ∃! c, c ∈ g.components ∧ l ∈ c) ∧
    (∀ u ∈ g.labels, ∀ v ∈ g.labels,
      (∃ c ∈ g.components, u ∈ c ∧ v ∈ c) ↔ Relation.ReflTransGen g.Adjacent u v) ∧
    (g.components.Pairwise fun c d => ∃ a b, c.min? = some a ∧ d.min? = some b ∧ a < b) ∧
    (∀ {ω' : Type} (g' : Graph ω'), g'.Distinct → g'.labels = g.labels →
      (∀ u v, u ≠ v → (g'.Adjacent u v ↔ g.Adjacent u v)) → g'.components = g.components) ∧
    ∀ m : Merging, m.Sound → g.componentsBy m = g.components := by
  refine ⟨fun c hc => ⟨exists_mem_component hc, fun l => mem_labels_of_mem_component hg hc⟩,
    fun l hl => ?_, fun u hu v hv => ?_, components_pairwise hg,
    fun g' hg' hlabels h => components_eq_of_adjacent hg hg' hlabels h,
    fun m hm => componentsBy_eq hg hm⟩
  · obtain ⟨c, hc, hlc⟩ := exists_component hg hl
    refine ⟨c, ⟨hc, hlc⟩, fun d ⟨hd, hld⟩ => Std.ExtTreeSet.ext_mem fun v => ?_⟩
    rw [mem_component_iff hg hd hld, mem_component_iff hg hc hlc]
  · rw [← connected_iff_path]
    constructor
    · intro ⟨c, hc, huc, hvc⟩
      exact ((mem_component_iff hg hc huc).mp hvc).2
    · intro huv
      obtain ⟨c, hc, huc⟩ := exists_component hg hu
      exact ⟨c, hc, huc, (mem_component_iff hg hc huc).mpr ⟨hv, huv⟩⟩

/-- A pair, joined in both directions, and two single nodes. The loop and the edges to no node join
nothing. -/
def strewnGraph : Graph Rat where
  label := "g"
  nodes := ["b", "a", "c", "d"].map fun l => ⟨l, 2⟩
  edges :=
    [⟨"a", "b", 1, 0⟩, ⟨"c", "c", 2, 1⟩, ⟨"c", "x", 1, 1⟩, ⟨"b", "a", 1, -1⟩, ⟨"x", "b", 1, 1⟩]

/-- The same nodes with one edge. -/
def pairedGraph : Graph Rat where
  label := "g"
  nodes := strewnGraph.nodes
  edges := [⟨"b", "a", 2, 1⟩]

/-- Parallel and dangling edges make no difference to what is adjacent. -/
theorem adjacent_pairedGraph {u v : String} (hne : u ≠ v) :
    pairedGraph.Adjacent u v ↔ strewnGraph.Adjacent u v := by
  refine and_congr_right fun hu => and_congr_right fun hv => ?_
  have hx : "x" ∉ pairedGraph.labels := by decide +kernel
  constructor
  · intro ⟨e, he, hj⟩
    obtain rfl := List.mem_singleton.mp he
    exact ⟨⟨"b", "a", 1, -1⟩, by decide, hj⟩
  · simp only [strewnGraph, pairedGraph, List.mem_cons, List.not_mem_nil, or_false,
      exists_eq_or_imp, exists_eq_left]
    intro hj
    rcases hj with hj | hj | hj | hj | hj
    · exact hj.symm.imp And.symm And.symm
    · rcases hj with ⟨rfl, rfl⟩ | ⟨rfl, rfl⟩ <;> exact absurd rfl hne
    · rcases hj with ⟨rfl, rfl⟩ | ⟨rfl, rfl⟩ <;> contradiction
    · exact hj
    · rcases hj with ⟨rfl, rfl⟩ | ⟨rfl, rfl⟩ <;> contradiction

/-- The pair comes first, and the single nodes are told apart. -/
theorem components_connected_strewn :
    strewnGraph.components.map (·.toList) = [["a", "b"], ["c"], ["d"]] ∧
    (∃! c, c ∈ strewnGraph.components ∧ "d" ∈ c) ∧
    (∃ c ∈ strewnGraph.components, "a" ∈ c ∧ "b" ∈ c) ∧
    ¬ Relation.ReflTransGen strewnGraph.Adjacent "b" "c" ∧
    pairedGraph.components = strewnGraph.components ∧
    strewnGraph.componentsBy .byRank = strewnGraph.components := by
  have hcomponents : strewnGraph.components =
      [Std.ExtTreeSet.ofList ["a", "b"], Std.ExtTreeSet.ofList ["c"], Std.ExtTreeSet.ofList ["d"]] :=
    components_eq_of_classes [("a", ["b"]), ("c", []), ("d", [])] (by decide +kernel) (by decide)
  have hg : strewnGraph.Distinct := by decide
  obtain ⟨-, hone, hpath, -, hsame, hmerging⟩ := strewnGraph.components_connected hg
  refine ⟨?_, hone "d" (by decide +kernel), ?_, fun hbc => ?_, ?_, hmerging _ Merging.byRank_sound⟩
  · rw [hcomponents]
    decide +kernel
  · refine (hpath "a" (by decide +kernel) "b" (by decide +kernel)).mpr (.single ?_)
    exact ⟨by decide +kernel, by decide +kernel, ⟨"a", "b", 1, 0⟩, by decide, by decide⟩
  · have hbc' := (hpath "b" (by decide +kernel) "c" (by decide +kernel)).mpr hbc
    rw [hcomponents] at hbc'
    exact absurd hbc' (by decide +kernel)
  · exact hsame pairedGraph hg rfl fun _ _ => adjacent_pairedGraph

end Graph

end Cochange
