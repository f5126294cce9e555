import Cochange.Proofs.Graph.Local
import Cochange.Proofs.Graph.Merging

/-!
# Repeated labels

A graph that is read may have several nodes with one label. Degrees are kept by labels, and so are
the numbers that the search gives, so there these nodes count as one (`degrees_firsts`). Components
are found by positions: the edges belong to the last node with a label, and each of the nodes before
it is alone in its class (`eq_of_same_overtaken`). It is a component beside the one that has its
label as well.

So the components of a graph are those that it has when each label is kept where it stands first,
and every label that is repeated once more by itself for each repetition (`components_perm`). The
blobs are found component by component. They are those of the distinct labels, and each repeated
label once more if a single node is dense enough to be a blob (`answers_of_repeated`); then blobs
are not disjoint. A graph that is too large gives every node by itself, the repeated ones too.
-/

namespace Cochange

/-- The labels that are named again further on in a list, once for each time. -/
def repeats : List String → List String
  | [] => []
  | l :: ls => if l ∈ ls then l :: repeats ls else repeats ls

/-- The nodes of a list with labels that no node before them has. -/
def firstNodes : List Node → List Node
  | [] => []
  | n :: ns => n :: (firstNodes ns).filter (·.label ≠ n.label)

section Lists

variable {ns : List Node} {ls : List String}

/-- Taking the first node of each label loses no label. -/
theorem mem_map_firstNodes {l : String} :
    l ∈ (firstNodes ns).map (·.label) ↔ l ∈ ns.map (·.label) := by
  induction ns with
  | nil => rfl
  | cons n ns ih =>
    rw [firstNodes, List.map_cons, List.map_cons, List.mem_cons, List.mem_cons, ← ih]
    refine or_congr_right' fun hl => ?_
    simp only [List.mem_map, List.mem_filter, decide_eq_true_eq]
    refine exists_congr fun m => ⟨fun h => ⟨h.1.1, h.2⟩, fun h => ⟨⟨h.1, fun hm => ?_⟩, h.2⟩⟩
    exact hl (h.2.symm.trans hm)

/-- Taking the first node of each label leaves each label once. -/
theorem nodup_map_firstNodes (ns : List Node) : ((firstNodes ns).map (·.label)).Nodup := by
  induction ns with
  | nil => exact List.nodup_nil
  | cons n ns ih =>
    rw [firstNodes, List.map_cons, List.nodup_cons]
    refine ⟨fun hn => ?_, (List.filter_sublist.map _).nodup ih⟩
    obtain ⟨m, hm, heq⟩ := List.mem_map.mp hn
    exact of_decide_eq_true (List.mem_filter.mp hm).2 heq

/-- Taking the first node of each label keeps the order. -/
theorem firstNodes_sublist (ns : List Node) : (firstNodes ns).Sublist ns := by
  induction ns with
  | nil => exact List.Sublist.refl []
  | cons n ns ih => exact (List.filter_sublist.trans ih).cons_cons n

/-- The labels are those that stand somewhere first and the repetitions. -/
theorem labels_perm (ns : List Node) :
    (ns.map (·.label)).Perm ((firstNodes ns).map (·.label) ++ repeats (ns.map (·.label))) := by
  have hdedup : ∀ ls : List String, ls.Perm (ls.dedup ++ repeats ls) := by
    intro ls
    induction ls with
    | nil => exact List.Perm.refl []
    | cons l ls ih =>
      rw [repeats]
      by_cases hl : l ∈ ls
      · rw [if_pos hl, List.dedup_cons_of_mem hl]
        exact (ih.cons l).trans List.perm_middle.symm
      · rw [if_neg hl, List.dedup_cons_of_notMem hl]
        exact ih.cons l
  refine (hdedup _).trans (List.Perm.append_right _ ?_)
  refine (List.perm_ext_iff_of_nodup (List.nodup_dedup _) (nodup_map_firstNodes ns)).mpr fun l => ?_
  rw [List.mem_dedup, mem_map_firstNodes]

/-- A list without repetitions has nothing to repeat. -/
theorem repeats_eq_nil_iff : repeats ls = [] ↔ ls.Nodup := by
  induction ls with
  | nil => exact iff_of_true rfl List.nodup_nil
  | cons l ls ih =>
    rw [repeats, List.nodup_cons, ← ih]
    by_cases hl : l ∈ ls
    · rw [if_pos hl]
      exact iff_of_false (List.cons_ne_nil l _) fun h => h.1 hl
    · rw [if_neg hl]
      exact (and_iff_right hl).symm

/-- The repetitions are what stands at the places behind which the same is named again. -/
theorem map_filter_zipIdx (ls : List String) : ∀ m,
    ((ls.zipIdx m).filter fun l => l.1 ∈ ls.drop (l.2 + 1 - m)).map Prod.fst = repeats ls := by
  induction ls with
  | nil => exact fun _ => rfl
  | cons l ls ih =>
    intro m
    have hrest : (ls.zipIdx (m + 1)).filter (fun k => k.1 ∈ (l :: ls).drop (k.2 + 1 - m)) =
        (ls.zipIdx (m + 1)).filter fun k => k.1 ∈ ls.drop (k.2 + 1 - (m + 1)) := by
      refine List.filter_congr fun k hk => ?_
      have hle := List.le_snd_of_mem_zipIdx hk
      rw [show k.2 + 1 - m = k.2 + 1 - (m + 1) + 1 by omega, List.drop_succ_cons]
    rw [List.zipIdx_cons, repeats]
    have hdrop : (l :: ls).drop (m + 1 - m) = ls := by
      rw [Nat.add_sub_cancel_left]
      rfl
    by_cases hl : l ∈ ls
    · rw [if_pos hl, List.filter_cons_of_pos, List.map_cons, hrest, ih]
      rw [hdrop]
      exact decide_eq_true hl
    · rw [if_neg hl, List.filter_cons_of_neg, hrest, ih]
      rw [hdrop, decide_eq_true_eq]
      exact hl

end Lists

/-- The set with one label. -/
def single (l : String) : LabelSet :=
  Std.ExtTreeSet.ofList [l]

theorem mem_single {l l' : String} : l' ∈ single l ↔ l' = l := by
  rw [single, mem_ofList_iff, List.mem_singleton]

theorem toList_single (l : String) : (single l).toList = [l] :=
  toList_ofList (List.pairwise_singleton _ l)

namespace Graph

variable {ω : Type} {g : Graph ω} {n : Node × Nat} {c : LabelSet} {l u v : String}

/-- The graph with each label kept only where it stands first. -/
def firsts (g : Graph ω) : Graph ω :=
  { g with nodes := firstNodes g.nodes }

/-- The labels that further nodes repeat, once for each of them. -/
def repeated (g : Graph ω) : List String :=
  repeats (g.nodes.map (·.label))

/-- The graph of first nodes repeats no label. -/
theorem firsts_distinct (g : Graph ω) : g.firsts.Distinct :=
  nodup_map_firstNodes g.nodes

/-- The graph of first nodes has the same labels. -/
theorem labels_firsts (g : Graph ω) : g.firsts.labels = g.labels := by
  refine Std.ExtTreeSet.ext_mem fun l => ?_
  rw [labels, labels, mem_ofList_iff, mem_ofList_iff]
  exact mem_map_firstNodes

/-- A graph repeats no label if its labels are distinct. -/
theorem repeated_eq_nil_iff : g.repeated = [] ↔ g.Distinct :=
  repeats_eq_nil_iff

theorem mem_labels_of_mem_repeated (hl : l ∈ g.repeated) : l ∈ g.labels := by
  rw [labels, mem_ofList_iff, (labels_perm g.nodes).mem_iff]
  exact List.mem_append_right _ hl

/-- Repeated nodes make no difference to the degrees. -/
theorem degrees_firsts [Weight ω] (g : Graph ω) : g.firsts.degrees = g.degrees := by
  unfold degrees
  refine congrArg (g.edges.foldl addEdge) (Std.ExtTreeMap.ext_getElem? fun l => ?_)
  rw [getElem?_uniform, getElem?_uniform, labels_firsts]

/-- Repeated nodes make no difference to what is connected. -/
theorem connected_firsts : g.firsts.Connected u v ↔ g.Connected u v := by
  have hadjacent : g.firsts.Adjacent = g.Adjacent := by
    funext u v
    unfold Adjacent
    rw [labels_firsts]
    rfl
  rw [Connected, hadjacent]
  rfl

/-! ## Classes -/

/-- The nodes behind which another one has their label, with their positions. -/
def overtaken (g : Graph ω) : List (Node × Nat) :=
  g.nodes.zipIdx.filter fun n => g.lastPositions[n.1.label]? ≠ some n.2

/-- A node is overtaken if a later one has its label. -/
theorem mem_overtaken :
    n ∈ g.overtaken ↔ n ∈ g.nodes.zipIdx ∧ g.lastPositions[n.1.label]? ≠ some n.2 := by
  rw [overtaken, List.mem_filter, decide_eq_true_eq]

/-- Their labels are the repeated ones. -/
theorem map_overtaken (g : Graph ω) : g.overtaken.map (·.1.label) = g.repeated := by
  have hlast : g.overtaken = g.nodes.zipIdx.filter fun n =>
      n.1.label ∈ (g.nodes.map (·.label)).drop (n.2 + 1 - 0) := by
    refine List.filter_congr fun n hn => decide_eq_decide.mpr ?_
    have hget := List.mem_zipIdx_iff_getElem?.mp hn
    rw [ne_eq, lastPositions_eq_some_iff, and_iff_right ⟨n.1, hget, rfl⟩, List.mem_iff_getElem?]
    simp only [List.getElem?_drop, List.getElem?_map, Option.map_eq_some_iff, not_forall]
    constructor
    · intro ⟨j, m, hm, hl, hj⟩
      exact ⟨j - (n.2 + 1), m, by rwa [show n.2 + 1 - 0 + (j - (n.2 + 1)) = j by omega], hl⟩
    · intro ⟨j, m, hm, hl⟩
      exact ⟨_, m, hm, hl, by omega⟩
  rw [repeated, ← map_filter_zipIdx _ 0, hlast, List.zipIdx_map, List.filter_map, List.map_map]
  rfl

/-- A node behind which another one has its label is alone in its class. -/
theorem eq_of_same_overtaken (hn : n ∈ g.overtaken) {j : Nat}
    (h : g.partition.rootOf n.2 = g.partition.rootOf j) : n.2 = j := by
  obtain ⟨hmem, hlast⟩ := mem_overtaken.mp hn
  rcases connected_of_eqvGen (same_partition.mp h) with heq | ⟨u, v, hu, -, -⟩
  · exact heq
  -- edges only join positions that are the last of some label
  · obtain ⟨m, hm, rfl⟩ := exists_node hu
    rw [List.mem_zipIdx_iff_getElem?.mp hmem] at hm
    rw [Option.some.inj hm] at hlast
    exact absurd hu hlast

/-- A node that is overtaken is alone in its class, as edges belong to the last node of a label. -/
theorem class_overtaken (hn : n ∈ g.overtaken) (hc : g.classes[g.partition.rootOf n.2]? = some c) :
    c = single n.1.label := by
  have hmem := (mem_overtaken.mp hn).1
  refine Std.ExtTreeSet.ext_mem fun l => ?_
  rw [mem_labelsBy hc, mem_single]
  constructor
  · intro ⟨m, hm, hroot, hl⟩
    have hpos := eq_of_same_overtaken hn hroot.symm
    have hget := List.mem_zipIdx_iff_getElem?.mp hm
    rw [← hpos, List.mem_zipIdx_iff_getElem?.mp hmem] at hget
    rw [← hl, Option.some.inj hget]
  · intro hl
    exact ⟨n, hmem, rfl, hl.symm⟩

/-! ## Components -/

/-- Whether the node that represents a class is followed by another one with its label. -/
def isOvertaken (g : Graph ω) (r : Nat) : Bool :=
  g.overtaken.any fun n => g.partition.rootOf n.2 == r

/-- A class is overtaken if it is that of a node that is. -/
theorem isOvertaken_iff {r : Nat} :
    g.isOvertaken r = true ↔ ∃ n ∈ g.overtaken, g.partition.rootOf n.2 = r := by
  simp only [isOvertaken, List.any_eq_true, beq_iff_eq]

/-- The last node with a label is in another class than the nodes that are overtaken. -/
theorem isOvertaken_last {i : Nat} (hi : g.lastPositions[l]? = some i) :
    g.isOvertaken (g.partition.rootOf i) = false := by
  rw [← Bool.not_eq_true, isOvertaken_iff]
  intro h
  obtain ⟨n, hn, hroot⟩ := h
  obtain ⟨hmem, hlast⟩ := mem_overtaken.mp hn
  obtain ⟨m, hm, rfl⟩ := exists_node hi
  have hget := List.mem_zipIdx_iff_getElem?.mp hmem
  rw [eq_of_same_overtaken hn hroot, hm, Option.some.injEq] at hget
  rw [eq_of_same_overtaken hn hroot, ← hget] at hlast
  exact hlast hi

/-- The classes of nodes that are overtaken, by their representatives. -/
def overtakenClasses (g : Graph ω) : List (Nat × LabelSet) :=
  g.classes.toList.filter fun rc => g.isOvertaken rc.1

/-- All other classes, by their representatives. -/
def keptClasses (g : Graph ω) : List (Nat × LabelSet) :=
  g.classes.toList.filter fun rc => !g.isOvertaken rc.1

theorem nodup_classes (g : Graph ω) : g.classes.toList.Nodup := by
  refine Std.ExtTreeMap.distinct_keys_toList.imp fun {p q} hne heq => hne ?_
  rw [heq]
  exact Std.ReflCmp.compare_self

/-- The overtaken classes are those of the nodes that are overtaken. -/
theorem mem_overtakenClasses {rc : Nat × LabelSet} :
    rc ∈ g.overtakenClasses ↔
      g.classes[rc.1]? = some rc.2 ∧ ∃ n ∈ g.overtaken, g.partition.rootOf n.2 = rc.1 := by
  rw [overtakenClasses, List.mem_filter, isOvertaken_iff,
    Std.ExtTreeMap.mem_toList_iff_getElem?_eq_some]

/-- The other classes are kept. -/
theorem mem_keptClasses {rc : Nat × LabelSet} :
    rc ∈ g.keptClasses ↔ g.classes[rc.1]? = some rc.2 ∧ g.isOvertaken rc.1 = false := by
  rw [keptClasses, List.mem_filter, Bool.not_eq_true',
    Std.ExtTreeMap.mem_toList_iff_getElem?_eq_some]

/-- A class that is kept holds the labels that have it for theirs. -/
theorem mem_of_mem_keptClasses {rc : Nat × LabelSet} (hrc : rc ∈ g.keptClasses) :
    l ∈ rc.2 ↔ g.classOf l = some rc.1 := by
  obtain ⟨hc, hkept⟩ := mem_keptClasses.mp hrc
  rw [mem_labelsBy hc, classOf, Option.map_eq_some_iff]
  constructor
  · intro h
    obtain ⟨n, hn, hroot, hl⟩ := h
    refine ⟨n.2, ?_, hroot⟩
    by_contra hlast
    have hovertaken := isOvertaken_iff.mpr ⟨n, mem_overtaken.mpr ⟨hn, hl.symm ▸ hlast⟩, hroot⟩
    rw [hkept] at hovertaken
    cases hovertaken
  · intro h
    obtain ⟨i, hi, hroot⟩ := h
    obtain ⟨n, hn, hl⟩ := exists_node hi
    exact ⟨(n, i), List.mem_zipIdx_iff_getElem?.mpr hn, hroot, hl⟩

/-- Every label has a class that is kept. -/
theorem exists_mem_keptClasses (hl : l ∈ g.labels) :
    ∃ rc ∈ g.keptClasses, g.classOf l = some rc.1 := by
  obtain ⟨i, hi⟩ := exists_position_iff.mpr hl
  obtain ⟨n, hn, -⟩ := exists_node hi
  obtain ⟨c, hc⟩ : ∃ c, g.classes[g.partition.rootOf i]? = some c :=
    exists_labelsBy_iff.mpr ⟨(n, i), List.mem_zipIdx_iff_getElem?.mpr hn, rfl⟩
  refine ⟨(g.partition.rootOf i, c), mem_keptClasses.mpr ⟨hc, isOvertaken_last hi⟩, ?_⟩
  rw [classOf, hi, Option.map_some]

/-- The classes of nodes that are overtaken are those of the repeated labels. -/
theorem overtakenClasses_perm (g : Graph ω) :
    (g.overtakenClasses.map (·.2)).Perm (g.repeated.map single) := by
  have hpairs : g.overtakenClasses.Perm
      (g.overtaken.map fun n => (g.partition.rootOf n.2, single n.1.label)) := by
    have hsnd : (g.overtaken.map (·.2)).Nodup := by
      refine (List.filter_sublist.map _).nodup ?_
      rw [List.zipIdx_map_snd]
      exact List.nodup_range'
    refine (List.perm_ext_iff_of_nodup ((nodup_classes g).filter _) ?_).mpr fun rc => ?_
    · refine List.pairwise_map.mpr ((List.pairwise_map.mp hsnd).imp_of_mem fun hn _ hne heq => ?_)
      exact hne (eq_of_same_overtaken hn (Prod.mk.inj heq).1)
    · show rc ∈ g.overtakenClasses ↔ _
      rw [mem_overtakenClasses, List.mem_map]
      constructor
      · intro ⟨hc, n, hn, hroot⟩
        exact ⟨n, hn, Prod.ext hroot (class_overtaken hn (hroot ▸ hc)).symm⟩
      · intro ⟨n, hn, heq⟩
        obtain ⟨d, hd⟩ := exists_labelsBy_iff.mpr ⟨n, (mem_overtaken.mp hn).1, rfl⟩
        subst heq
        exact ⟨class_overtaken hn hd ▸ hd, n, hn, rfl⟩
  refine (hpairs.map (·.2)).trans (List.Perm.of_eq ?_)
  rw [← map_overtaken, List.map_map, List.map_map]
  rfl

/-- The other classes are the components of the distinct labels. -/
theorem keptClasses_perm (g : Graph ω) :
    (g.keptClasses.map (·.2)).Perm g.firsts.components := by
  have hsome : ∀ {rc : Nat × LabelSet}, rc ∈ g.keptClasses → ∃ l, l ∈ rc.2 := by
    intro rc hrc
    exact exists_mem_component (mem_components.mpr ⟨rc.1, (mem_keptClasses.mp hrc).1⟩)
  have hnodup := (componentsBy_sorted g.firsts_distinct .byRank).nodup_map.of_map
  refine (List.perm_ext_iff_of_nodup ?_ hnodup).mpr fun c => ?_
  · refine List.pairwise_map.mpr (((nodup_classes g).filter _).imp_of_mem fun {p q} hp hq hne => ?_)
    intro heq
    obtain ⟨l, hl⟩ := hsome hp
    have hroot := (mem_of_mem_keptClasses hp).mp hl
    rw [(mem_of_mem_keptClasses hq).mp (heq ▸ hl)] at hroot
    exact hne (Prod.ext (Option.some.inj hroot).symm heq)
  · show _ ↔ c ∈ g.firsts.components
    rw [mem_components_iff_paths g.firsts_distinct, List.mem_map]
    simp only [labels_firsts, connected_firsts]
    constructor
    · intro h
      obtain ⟨rc, hrc, rfl⟩ := h
      obtain ⟨u, hu⟩ := hsome hrc
      have hroot := (mem_of_mem_keptClasses hrc).mp hu
      refine ⟨u, mem_labels_of_classOf hroot, fun v => ?_⟩
      rw [mem_of_mem_keptClasses hrc, mem_class_iff hroot]
    · intro h
      obtain ⟨u, hu, huv⟩ := h
      obtain ⟨rc, hrc, hroot⟩ := exists_mem_keptClasses hu
      refine ⟨rc, hrc, Std.ExtTreeSet.ext_mem fun v => ?_⟩
      rw [mem_of_mem_keptClasses hrc, mem_class_iff hroot, huv]

/-- The components are those of the distinct labels, and each repeated label by itself. -/
theorem components_perm (g : Graph ω) :
    g.components.Perm (g.firsts.components ++ g.repeated.map single) := by
  have hsplit : (g.classes.toList.map (·.2)).Perm
      (g.overtakenClasses.map (·.2) ++ g.keptClasses.map (·.2)) := by
    rw [← List.map_append]
    exact (List.filter_append_perm _ g.classes.toList).symm.map (·.2)
  refine ((List.mergeSort_perm _ _).trans hsplit).trans ?_
  exact ((overtakenClasses_perm g).append (keptClasses_perm g)).trans List.perm_append_comm

/-- Whatever labels are repeated, the components come in the order of their smallest labels. -/
theorem components_ordered (g : Graph ω) :
    g.components.Pairwise fun a b => (compare a.min? b.min?).isLE := by
  have := transCmp_on compare (Std.ExtTreeSet.min? : LabelSet → Option String)
  rw [components_eq_byRank, componentsBy_eq_mergeSort]
  exact List.pairwise_mergeSort (fun _ _ _ => Std.TransCmp.isLE_trans)
    (isLE_total fun a b : LabelSet => compare a.min? b.min?) _

/-- The components of the first nodes are among those of all nodes, in the same order. -/
theorem components_sublist (g : Graph ω) : g.firsts.components.Sublist g.components := by
  have hsorted : StrictlySorted (·.min?) g.firsts.components :=
    componentsBy_sorted g.firsts_distinct .byRank
  refine hsorted.sublist g.components_ordered fun c hc => ?_
  exact (components_perm g).mem_iff.mpr (List.mem_append_left _ hc)

/-- Repeated nodes make no difference to the components only if there are none. -/
theorem components_firsts_iff : g.components = g.firsts.components ↔ g.Distinct := by
  have hlength := (components_perm g).length_eq
  rw [List.length_append, List.length_map] at hlength
  rw [← repeated_eq_nil_iff]
  constructor
  · intro heq
    rw [heq] at hlength
    exact List.length_eq_zero_iff.mp (by omega)
  · intro hnil
    rw [hnil, List.length_nil, Nat.add_zero] at hlength
    exact (g.components_sublist.eq_of_length hlength.symm).symm

/-! ## Blobs -/

section Blobs

variable [Weight ω] {minDensity : ω}

/-- The density of a single node. -/
def loneDensity (ω : Type) [Weight ω] : ω :=
  Weight.divNat (Weight.sum [Weight.sum []]) 1

/-- Among a single label that one is found. -/
theorem densestAmong_single (edges : List (Edge ω)) (l : String) :
    densestAmong edges [l] = ([l], loneDensity ω) := by
  have hlinks : edges.filterMap (linkOf? (numbering [l])) = [] := by
    refine List.filterMap_eq_nil_iff.mpr fun e _ => ?_
    unfold linkOf?
    split
    next a b ha hb =>
      rw [numbering, ofList_zipIdx_eq_some (List.nodup_singleton l)] at ha hb
      have halt : a < 1 := (List.getElem?_eq_some_iff.mp ha).1
      have hblt : b < 1 := (List.getElem?_eq_some_iff.mp hb).1
      exact if_pos (by omega)
    next => rfl
  have hdensest : Peel.densest (.ofLinks 1 [] : Adjacency ω) = (loneDensity ω, []) := by
    have hsum : (Peel.start (.ofLinks 1 [] : Adjacency ω)).degreeSum =
        Weight.sum [Weight.sum []] := by
      simp [Peel.start, Adjacency.degrees, Adjacency.ofLinks]
    rw [Peel.densest, size_ofLinks, hsum, Peel.go]
    split
    next => rfl
    next => exact if_pos rfl
  unfold densestAmong
  rw [hlinks, List.length_singleton, hdensest]
  rfl

/-- A single label is a blob by itself if the density of a single node is enough. -/
theorem blobsAmong_single (edges : List (Edge ω)) (l : String) :
    blobsAmong edges minDensity (single l) =
      if Weight.lt (loneDensity ω) minDensity then [] else [⟨single l, loneDensity ω⟩] := by
  rw [blobsAmong, toList_single, List.length_singleton, searchAmong, if_neg (by simp),
    densestAmong_single]
  dsimp only
  split
  next => rfl
  next => rfl

/-- The blobs of a graph are those of the distinct labels, in the same order, and each repeated
label by itself if a single node is dense enough. -/
theorem exists_findBlobs_repeated (hd : Weight.isNonnegative minDensity = true)
    (hsize : g.nodes.length ≤ maxSearchedNodes) :
    ∃ blobs blobs', g.firsts.findBlobs minDensity = .ok blobs ∧
      g.findBlobs minDensity = .ok blobs' ∧ blobs.Sublist blobs' ∧
      blobs'.Perm (blobs ++ if Weight.lt (loneDensity ω) minDensity then [] else
        g.repeated.map fun l => ⟨single l, loneDensity ω⟩) := by
  have hsize' : g.firsts.nodes.length ≤ maxSearchedNodes :=
    (firstNodes_sublist g.nodes).length_le.trans hsize
  have hlabels : ∀ c ∈ g.components, ∀ l ∈ c, l ∈ g.labels := by
    intro c hc l hl
    rcases List.mem_append.mp ((components_perm g).mem_iff.mp hc) with hc | hc
    · exact labels_firsts g ▸ mem_labels_of_mem_component g.firsts_distinct hc hl
    · obtain ⟨l', hl', rfl⟩ := List.mem_map.mp hc
      exact mem_single.mp hl ▸ mem_labels_of_mem_repeated hl'
  have hfound : g.findBlobs minDensity =
      .ok (g.components.flatMap (blobsAmong g.edges minDensity)) := by
    rw [findBlobs_components hd hsize]
    exact congrArg _ (List.flatMap_congr fun c hc => blobsWithin_eq (hlabels c hc))
  refine ⟨_, _, findBlobs_eq_flatMap g.firsts_distinct hd hsize', hfound,
    g.components_sublist.flatMap _, ?_⟩
  refine ((components_perm g).flatMap_right _).trans (List.Perm.of_eq ?_)
  rw [List.flatMap_append, List.flatMap_map]
  refine congrArg (_ ++ ·) ?_
  simp only [blobsAmong_single]
  split
  next => exact List.flatMap_eq_nil_iff.mpr fun _ _ => rfl
  next => exact List.map_eq_flatMap.symm

/-- Repeated nodes make no difference to the blobs if a node alone is not dense enough. -/
theorem findBlobs_firsts (hd : Weight.isNonnegative minDensity = true)
    (hsize : g.nodes.length ≤ maxSearchedNodes)
    (hlone : Weight.lt (loneDensity ω) minDensity = true) :
    g.findBlobs minDensity = g.firsts.findBlobs minDensity := by
  obtain ⟨blobs, blobs', hfirsts, hg, hsub, hperm⟩ := exists_findBlobs_repeated hd hsize
  rw [if_pos hlone, List.append_nil] at hperm
  rw [hg, hfirsts, hsub.eq_of_length hperm.length_eq.symm]

/-- A graph that is too large has every label for a blob, the repeated ones once more each time. -/
theorem exists_findBlobs_large (hd : Weight.isNonnegative minDensity = true)
    (hsize : maxSearchedNodes < g.nodes.length) :
    ∃ blobs, g.findBlobs minDensity = .ok blobs ∧
      blobs.Perm ((g.firsts.nodes.map (·.label) ++ g.repeated).map fun l =>
        ⟨single l, Weight.zero⟩) := by
  refine ⟨_, findBlobs_of_large hd hsize, ?_⟩
  have hperm := (labels_perm g.nodes).map fun l => (⟨single l, Weight.zero⟩ : Subgraph ω)
  rw [List.map_map] at hperm
  exact hperm

end Blobs

/-- The degrees of a graph are those that it has when each label is kept only where it stands first.
So are the components and the blobs, in the same order, but that each repeated label comes once more
by itself for every repetition: among the components always, so that these agree if and only if no
label is repeated, and among the blobs if a single node is dense enough. In a graph that is too
large, repetitions counted, every node is a blob. -/
theorem answers_of_repeated [Weight ω] (g : Graph ω) :
    g.firsts.degrees = g.degrees ∧
    (g.firsts.components.Sublist g.components ∧
      g.components.Perm (g.firsts.components ++ g.repeated.map single) ∧
      (g.components = g.firsts.components ↔ g.Distinct)) ∧
    ∀ minDensity : ω, Weight.isNonnegative minDensity = true →
      (g.nodes.length ≤ maxSearchedNodes →
        (∃ blobs blobs', g.firsts.findBlobs minDensity = .ok blobs ∧
          g.findBlobs minDensity = .ok blobs' ∧ blobs.Sublist blobs' ∧
          blobs'.Perm (blobs ++ if Weight.lt (loneDensity ω) minDensity then [] else
            g.repeated.map fun l => ⟨single l, loneDensity ω⟩)) ∧
        (Weight.lt (loneDensity ω) minDensity = true →
          g.findBlobs minDensity = g.firsts.findBlobs minDensity)) ∧
      (maxSearchedNodes < g.nodes.length → ∃ blobs, g.findBlobs minDensity = .ok blobs ∧
        blobs.Perm ((g.firsts.nodes.map (·.label) ++ g.repeated).map fun l =>
          ⟨single l, Weight.zero⟩)) :=
  ⟨degrees_firsts g, ⟨components_sublist g, components_perm g, components_firsts_iff⟩,
    fun _ hd => ⟨fun hsize => ⟨exists_findBlobs_repeated hd hsize, findBlobs_firsts hd hsize⟩,
      exists_findBlobs_large hd⟩⟩

/-- A coupled pair, of which one node is there twice. -/
def repeatedNode : Graph Rat where
  label := "g"
  nodes := [⟨"a", 1⟩, ⟨"a", 1⟩, ⟨"b", 1⟩]
  edges := [⟨"a", "b", 1, 1⟩]

/-- The repeated node is a component of its own beside the one that it belongs to. -/
theorem components_repeatedNode :
    repeatedNode.components = [Std.ExtTreeSet.ofList ["a"], Std.ExtTreeSet.ofList ["a", "b"]] :=
  components_eq_of_classes [("a", []), ("a", ["b"])] (by decide +kernel) (by decide)

/-- The pair is denser than a single node. If half of its density is asked for, it is found as it is
without the repetition. -/
theorem answers_of_repeated_pair :
    repeatedNode.firsts.degrees = repeatedNode.degrees ∧
      repeatedNode.components.length = repeatedNode.firsts.components.length + 1 ∧
      repeatedNode.findBlobs (1 / 2) = repeatedNode.firsts.findBlobs (1 / 2) ∧
      (repeatedNode.findBlobs (1 / 2)).toOption.map (·.map fun b => (b.nodes.toList, b.density)) =
        some [(["a", "b"], 1)] := by
  obtain ⟨hdegrees, ⟨-, hperm, -⟩, hblobs⟩ := answers_of_repeated repeatedNode
  obtain ⟨hsearched, -⟩ := hblobs (1 / 2) (by decide +kernel)
  obtain ⟨-, hsame⟩ := hsearched (by decide)
  have hfirsts := hsame (by decide +kernel)
  have hlength := hperm.length_eq
  rw [List.length_append, List.length_map] at hlength
  refine ⟨hdegrees, hlength, hfirsts, ?_⟩
  rw [hfirsts]
  decide +kernel

/-- The repeated node is a component beside the pair that its label belongs to, and a blob if
nothing is asked of the density. -/
theorem repeated_node_counts_twice :
    repeatedNode.components.map (·.toList) = [["a"], ["a", "b"]] ∧
      repeatedNode.firsts.components.map (·.toList) = [["a", "b"]] ∧
      (repeatedNode.findBlobs 0).toOption.map (·.map fun b => (b.nodes.toList, b.density)) =
        some [(["a"], 0), (["a", "b"], 1)] ∧
      (repeatedNode.firsts.findBlobs 0).toOption.map (·.map fun b => (b.nodes.toList, b.density)) =
        some [(["a", "b"], 1)] := by
  have hd : Weight.isNonnegative (0 : Rat) = true := by decide +kernel
  refine ⟨?_, by decide +kernel, ?_, by decide +kernel⟩
  · rw [components_repeatedNode]
    decide +kernel
  · rw [findBlobs_components hd (by decide), components_repeatedNode]
    decide +kernel

end Graph

end Cochange
