import Cochange.Proofs.Graph.Numbers
import Cochange.Proofs.Graph.Partition

/-!
# What the components hold

Every label has a position and with it a class, and an edge between two nodes joins labels of one
class (`classOf_edge`). If the labels of a graph are distinct, the components are the classes of the
labels: each holds all labels of one class (`mem_component`), and every label is in one of them
(`exists_component`).
-/

namespace Cochange

namespace Graph

variable {ω : Type} {g : Graph ω} {l : String}

/-- The representative of the class of a label, if there is a node with it. -/
def classOf (g : Graph ω) (l : String) : Option Nat :=
  g.lastPositions[l]?.map g.partition.rootOf

/-! ## Edges -/

/-- Only positions of nodes are joined. -/
theorem joinedPositions_lt (g : Graph ω) :
    ∀ xy ∈ g.joinedPositions, xy.1 < g.nodes.length ∧ xy.2 < g.nodes.length := by
  intro xy hxy
  obtain ⟨e, -, he⟩ := List.mem_filterMap.mp hxy
  split at he
  next a b ha hb =>
    rw [← Option.some.inj he]
    obtain ⟨n, hn, -⟩ := exists_node ha
    obtain ⟨n', hn', -⟩ := exists_node hb
    exact ⟨(List.getElem?_eq_some_iff.mp hn).1, (List.getElem?_eq_some_iff.mp hn').1⟩
  next => exact absurd he (by simp)

/-- Two positions are in one class if edges lead from one to the other. -/
theorem same_partition {x y : Nat} :
    g.partition.Same x y ↔ Relation.EqvGen (fun a b => (a, b) ∈ g.joinedPositions) x y :=
  Partition.same_unionAll_discrete g.joinedPositions_lt

/-- The ends of an edge between two nodes are in one class. -/
theorem classOf_edge {e : Edge ω} (he : e ∈ g.edges) (hs : e.source ∈ g.labels)
    (ht : e.target ∈ g.labels) : g.classOf e.source = g.classOf e.target := by
  obtain ⟨a, ha⟩ := exists_position_iff.mpr hs
  obtain ⟨b, hb⟩ := exists_position_iff.mpr ht
  have hab : (a, b) ∈ g.joinedPositions := by
    refine List.mem_filterMap.mpr ⟨e, he, ?_⟩
    rw [ha, hb]
  have hsame : g.partition.Same a b := same_partition.mpr (.rel _ _ hab)
  rw [classOf, classOf, ha, hb, Option.map_some, Option.map_some, hsame]

/-! ## Classes -/

/-- What a class holds after some more nodes were put into theirs, and whether there is one. -/
theorem getElem?_foldl_alter (root : Nat → Nat) (r : Nat) (l : String) (ns : List (Node × Nat)) :
    ∀ m : Std.ExtTreeMap Nat LabelSet,
      let m' := ns.foldl
        (fun m n => m.alter (root n.2) fun s => some ((s.getD ∅).insert n.1.label)) m
      (l ∈ m'[r]?.getD ∅ ↔ l ∈ m[r]?.getD ∅ ∨ ∃ n ∈ ns, root n.2 = r ∧ n.1.label = l) ∧
        (m'[r]?.isSome = true ↔ m[r]?.isSome = true ∨ ∃ n ∈ ns, root n.2 = r) := by
  induction ns with
  | nil =>
    intro m
    simp
  | cons n ns ih =>
    intro m
    obtain ⟨hmem, hsome⟩ := ih (m.alter (root n.2) fun s => some ((s.getD ∅).insert n.1.label))
    rw [Std.ExtTreeMap.getElem?_alter] at hmem hsome
    -- the first node puts its label into its own class only
    refine ⟨hmem.trans ?_, hsome.trans ?_⟩
    · rw [List.exists_mem_cons_iff, ← or_assoc]
      refine or_congr_left ?_
      by_cases hr : root n.2 = r
      · rw [if_pos (Std.LawfulEqCmp.compare_eq_iff_eq.mpr hr), Option.getD_some,
          Std.ExtTreeSet.mem_insert, Std.LawfulEqCmp.compare_eq_iff_eq, hr]
        exact or_comm.trans (or_congr_right (and_iff_right rfl).symm)
      · rw [if_neg (fun he => hr (Std.LawfulEqCmp.eq_of_compare he))]
        exact (or_iff_left fun hc => hr hc.1).symm
    · rw [List.exists_mem_cons_iff, ← or_assoc]
      refine or_congr_left ?_
      by_cases hr : root n.2 = r
      · rw [if_pos (Std.LawfulEqCmp.compare_eq_iff_eq.mpr hr)]
        simp [hr]
      · rw [if_neg (fun he => hr (Std.LawfulEqCmp.eq_of_compare he))]
        exact (or_iff_left hr).symm

/-- The labels of nodes, gathered by what their positions stand for. -/
def labelsBy (root : Nat → Nat) (ns : List (Node × Nat)) : Std.ExtTreeMap Nat LabelSet :=
  ns.foldl (fun classes n => classes.alter (root n.2) fun s => some ((s.getD ∅).insert n.1.label)) ∅

section Gathered

variable {root : Nat → Nat} {ns : List (Node × Nat)} {r : Nat} {c : LabelSet}

/-- The labels under a root are those of the nodes that have it. -/
theorem mem_labelsBy (hc : (labelsBy root ns)[r]? = some c) (l : String) :
    l ∈ c ↔ ∃ n ∈ ns, root n.2 = r ∧ n.1.label = l := by
  have hmem := (getElem?_foldl_alter root r l ns ∅).1
  rw [show List.foldl _ ∅ ns = labelsBy root ns from rfl, hc] at hmem
  refine hmem.trans (or_iff_right ?_)
  rw [Std.ExtTreeMap.getElem?_empty]
  exact Std.ExtTreeSet.not_mem_empty

/-- There are labels under the roots of nodes only. -/
theorem exists_labelsBy_iff :
    (∃ c, (labelsBy root ns)[r]? = some c) ↔ ∃ n ∈ ns, root n.2 = r := by
  have hsome := (getElem?_foldl_alter root r "" ns ∅).2
  rw [show List.foldl _ ∅ ns = labelsBy root ns from rfl, Option.isSome_iff_exists] at hsome
  refine hsome.trans (or_iff_right ?_)
  rw [Std.ExtTreeMap.getElem?_empty]
  exact Bool.false_ne_true

end Gathered

/-- A node's label is in the class of the node's position. -/
theorem classOf_eq_some (hg : g.Distinct) {r : Nat} :
    g.classOf l = some r ↔
      ∃ n ∈ g.nodes.zipIdx, g.partition.rootOf n.2 = r ∧ n.1.label = l := by
  rw [classOf, Option.map_eq_some_iff]
  constructor
  · rintro ⟨i, hi, hr⟩
    obtain ⟨n, hn, hl⟩ := (lastPositions_eq_some hg).mp hi
    exact ⟨(n, i), List.mem_zipIdx_iff_getElem?.mpr hn, hr, hl⟩
  · rintro ⟨n, hn, hr, hl⟩
    exact ⟨n.2, (lastPositions_eq_some hg).mpr ⟨n.1, List.mem_zipIdx_iff_getElem?.mp hn, hl⟩, hr⟩

/-- The labels of a class are those that belong to it. -/
theorem mem_classes (hg : g.Distinct) {r : Nat} {c : LabelSet} (hc : g.classes[r]? = some c) :
    l ∈ c ↔ g.classOf l = some r := by
  rw [classOf_eq_some hg]
  exact mem_labelsBy hc l

/-- The class of a label is among the classes. -/
theorem exists_class (hg : g.Distinct) {r : Nat} (hl : g.classOf l = some r) :
    ∃ c, g.classes[r]? = some c := by
  obtain ⟨n, hn, hr, -⟩ := (classOf_eq_some hg).mp hl
  exact exists_labelsBy_iff.mpr ⟨n, hn, hr⟩

/-! ## Components -/

/-- The components are the classes. -/
theorem mem_components {c : LabelSet} : c ∈ g.components ↔ ∃ r : Nat, g.classes[r]? = some c := by
  rw [components, List.mem_mergeSort, List.mem_map]
  constructor
  · rintro ⟨⟨r, c⟩, hrc, rfl⟩
    exact ⟨r, Std.ExtTreeMap.mem_toList_iff_getElem?_eq_some.mp hrc⟩
  · rintro ⟨r, hr⟩
    exact ⟨(r, c), Std.ExtTreeMap.mem_toList_iff_getElem?_eq_some.mpr hr, rfl⟩

/-- A component holds all labels of one class. -/
theorem mem_component (hg : g.Distinct) {c : LabelSet} (hc : c ∈ g.components) :
    ∃ r, ∀ l, l ∈ c ↔ g.classOf l = some r := by
  obtain ⟨r, hr⟩ := mem_components.mp hc
  exact ⟨r, fun l => mem_classes hg hr⟩

/-- Every label is in a component. -/
theorem exists_component (hg : g.Distinct) (hl : l ∈ g.labels) :
    ∃ c ∈ g.components, l ∈ c := by
  obtain ⟨i, hi⟩ := exists_position_iff.mpr hl
  have hr : g.classOf l = some (g.partition.rootOf i) := by rw [classOf, hi]; rfl
  obtain ⟨c, hc⟩ := exists_class hg hr
  exact ⟨c, mem_components.mpr ⟨_, hc⟩, (mem_classes hg hc).mpr hr⟩

/-- The components are the classes, if these come in the order of their first labels. -/
theorem components_eq_of_classes (lss : List (String × List String))
    (hclasses : g.classes.toList.map (·.2.toList) = lss.map fun ls => ls.1 :: ls.2)
    (hsorted : lss.Pairwise fun ls ls' => ls.1 ≤ ls'.1) :
    g.components = lss.map fun ls => Std.ExtTreeSet.ofList (ls.1 :: ls.2) := by
  have hsets : g.classes.toList.map (·.2) =
      lss.map fun ls => Std.ExtTreeSet.ofList (ls.1 :: ls.2) := by
    have hmap := congrArg (List.map (Std.ExtTreeSet.ofList · compare)) hclasses
    simpa only [List.map_map, Function.comp_def, ofList_toList] using hmap
  have hfirst : ∀ ls ∈ lss, (Std.ExtTreeSet.ofList (ls.1 :: ls.2) : LabelSet).min? = some ls.1 := by
    intro ls hls
    obtain ⟨c, -, hc⟩ := List.mem_map.mp (hclasses ▸ List.mem_map_of_mem hls)
    rw [← hc, ofList_toList, min?_of_toList hc]
  rw [components, hsets]
  refine List.mergeSort_of_pairwise (List.pairwise_map.mpr ?_)
  refine hsorted.imp_of_mem fun {ls ls'} hls hls' hle => ?_
  rw [firstLabelLe, hfirst ls hls, hfirst ls' hls']
  exact decide_eq_true hle

end Graph

end Cochange
