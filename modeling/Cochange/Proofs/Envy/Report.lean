import Cochange.Proofs.Envy.Grouping
import Cochange.Proofs.Graph.Coloring

/-!
# The report on feature envy

The report has the instances of a context file by file (`Report.Complete`), and for each of these
files a graph that shows its entities and those of the files it envies (`FileReport.ShownBy`).

The colors of the graph are the positions of groups: first the entities of each file that is shown,
in the order of paths, then each instance by itself. A group that was left out would shift all colors
behind it. None is, since every file that is shown has tracked entities (`coloredGraph_eq`).
-/

namespace Cochange

namespace FeatureEnvy

variable {ω : Type}

/-- The order of reports: from the most instances to the fewest, then by path. -/
def FileReport.order (r s : FileReport ω) : Ordering :=
  (compare s.count r.count).then (compare r.file s.file)

/-- The file and all that its instances envy, in the order of their paths. -/
def FileReport.shownFiles (r : FileReport ω) : List String :=
  ((Std.ExtTreeSet.ofList (r.instances.map (·.enviedFile)) : LabelSet).insert r.file).toList

/-- A graph shows the tracked entities of a reported file and of the files that its instances envy,
and nothing else. An entity of an instance has, above the colors of all files, that of its last
instance; every other one that of its file. -/
structure FileReport.ShownBy (c : Context ω) (r : FileReport ω) (g : ColoredGraph ω) : Prop where
  label : g.graph.label = r.file
  files_sorted : StrictlySorted id r.shownFiles
  mem_files : ∀ path, path ∈ r.shownFiles ↔ path = r.file ∨ ∃ i ∈ r.instances, i.enviedFile = path
  nodes_sorted : StrictlySorted (·.label) g.graph.nodes
  mem_nodes : ∀ n, n ∈ g.graph.nodes ↔
    ∃ x ∈ c.entityIds, x.sourcePath ∈ r.shownFiles ∧ n = ⟨x.text, c.changeCount x⟩
  colored : ∀ l, (g.color? l).isSome = true ↔ l ∈ g.graph.labels
  color_plain : ∀ x ∈ c.entityIds, (∀ i ∈ r.instances, i.function ≠ x) →
    ∀ k, r.shownFiles[k]? = some x.sourcePath → g.color? x.text = some (k + 1)
  color_envious : ∀ (k : Nat) i, r.instances[k]? = some i →
    (∀ (l : Nat) j, k < l → r.instances[l]? = some j → j.function ≠ i.function) →
    g.color? i.function.text = some (r.shownFiles.length + (k + 1))
  color_above : ∀ i ∈ r.instances, ∀ x ∈ c.entityIds, x.sourcePath ∈ r.shownFiles →
    (∀ j ∈ r.instances, j.function ≠ x) →
    ∃ m n, g.color? x.text = some m ∧ g.color? i.function.text = some n ∧ m < n

/-- A report has each of some instances in the report of its file, in their order, and nothing else;
and for each of these files a graph. -/
structure Report.Complete (c : Context ω) (is : List (Instance ω)) (r : Report ω) : Prop where
  sorted : r.files.Pairwise fun f f' => f.order f' = .lt
  paths : ∀ path, (∃ f ∈ r.files, f.file = path) ↔ ∃ i ∈ is, i.function.sourcePath = path
  instances : ∀ f ∈ r.files, f.instances = is.filter fun i => i.function.sourcePath = f.file
  together : (r.files.flatMap (·.instances)).Perm is
  graphs_sorted : StrictlySorted (·.graph.label) r.coloredGraphs
  graph : ∀ f ∈ r.files, ∃ g ∈ r.coloredGraphs, f.ShownBy c g
  reported : ∀ g ∈ r.coloredGraphs, ∃ f ∈ r.files, f.ShownBy c g

/-! ## The graph of a reported file -/

section Shown

variable {c : Context ω} {r : FileReport ω} {path : String} {x : QualifiedId}

/-- The files that are shown are the one reported on and those envied. -/
theorem FileReport.mem_shownFiles :
    path ∈ r.shownFiles ↔ path = r.file ∨ ∃ i ∈ r.instances, i.enviedFile = path := by
  unfold shownFiles
  rw [Std.ExtTreeSet.mem_toList, Std.ExtTreeSet.mem_insert, mem_ofList_iff, List.mem_map,
    Std.compare_eq_iff_eq]
  exact or_congr_left eq_comm

/-- The files that are shown are in order, each once. -/
theorem FileReport.shownFiles_sorted (r : FileReport ω) : StrictlySorted id r.shownFiles :=
  sorted_toList _

theorem FileReport.nodup_shownFiles (r : FileReport ω) : r.shownFiles.Nodup :=
  nodup_toList _

/-- The entities that are shown. -/
def FileReport.shownIds (c : Context ω) (r : FileReport ω) : Std.ExtTreeSet QualifiedId :=
  Std.ExtTreeSet.ofList (r.shownFiles.flatMap c.idsOf)

/-- The groups that give the colors. -/
def FileReport.groups (c : Context ω) (r : FileReport ω) : List (List String) :=
  r.shownFiles.map (fun f => (c.idsOf f).map (·.text)) ++ r.instances.map fun i => [i.function.text]

/-- The entities that are shown are the tracked ones of these files. -/
theorem FileReport.mem_shownIds :
    x ∈ r.shownIds c ↔ x ∈ c.entityIds ∧ x.sourcePath ∈ r.shownFiles := by
  unfold shownIds
  rw [mem_ofList_iff, List.mem_flatMap]
  constructor
  · rintro ⟨f, hf, hx⟩
    obtain ⟨htracked, rfl⟩ := Context.mem_idsOf.mp hx
    exact ⟨htracked, hf⟩
  · exact fun h => ⟨x.sourcePath, h.2, Context.mem_idsOf.mpr ⟨h.1, rfl⟩⟩

/-- When all files that are shown have tracked entities, no group is left out. -/
theorem coloredGraph_eq (h : ∀ f ∈ r.shownFiles, c.idsOf f ≠ []) :
    coloredGraph c r.file r.instances =
      .ofGroups (c.graphOf r.file (r.shownIds c)) (r.groups c) := by
  have hgroups : (r.shownFiles.filterMap fun f => (c.idsByFile[f]?).map fun s => s.toList) =
      r.shownFiles.map c.idsOf := by
    have hsome : ∀ f ∈ r.shownFiles,
        ((c.idsByFile[f]?).map fun s => s.toList) = some (c.idsOf f) := by
      intro f hf
      rw [Context.getElem?_idsByFile, if_neg (h f hf), Option.map_some,
        toList_ofList (c.idsOf_sorted f)]
    rw [List.filterMap_congr hsome, List.filterMap_eq_map']
  unfold coloredGraph FileReport.shownIds FileReport.groups
  unfold FileReport.shownFiles at hgroups ⊢
  dsimp only
  rw [hgroups, List.map_map, List.flatten_eq_flatMap, List.flatMap_map]
  rfl

/-- The labels of a graph of entities are their texts. -/
theorem mem_labels_graphOf {label l : String} {ids : Std.ExtTreeSet QualifiedId} :
    l ∈ (c.graphOf label ids).labels ↔ ∃ x : QualifiedId, x ∈ ids ∧ x.text = l := by
  rw [Graph.mem_labels]
  constructor
  · rintro ⟨n, hn, rfl⟩
    obtain ⟨x, hx, rfl⟩ := Context.mem_nodes_graphOf.mp hn
    exact ⟨x, hx, rfl⟩
  · rintro ⟨x, hx, rfl⟩
    exact ⟨_, Context.mem_nodes_graphOf.mpr ⟨x, hx, rfl⟩, rfl⟩

/-! ### The positions of groups -/

/-- The groups of the files come first. -/
theorem FileReport.getElem?_groups_file {k : Nat} {f : String} (hk : r.shownFiles[k]? = some f) :
    (r.groups c)[k]? = some ((c.idsOf f).map (·.text)) := by
  have hlt : k < (r.shownFiles.map fun f => (c.idsOf f).map (·.text)).length := by
    rw [List.length_map]
    exact (List.getElem?_eq_some_iff.mp hk).1
  unfold groups
  rw [List.getElem?_append_left hlt, List.getElem?_map, hk]
  rfl

/-- Those of the instances stand behind them. -/
theorem FileReport.getElem?_groups_instance (c : Context ω) (r : FileReport ω) (k : Nat) :
    (r.groups c)[r.shownFiles.length + k]? = r.instances[k]?.map fun i => [i.function.text] := by
  unfold groups
  rw [List.getElem?_append_right (by simp), List.length_map, Nat.add_sub_cancel_left,
    List.getElem?_map]

/-- Every group is that of a file or of an instance. -/
theorem FileReport.of_getElem?_groups {l : Nat} {group : List String}
    (h : (r.groups c)[l]? = some group) :
    (∃ f, r.shownFiles[l]? = some f ∧ group = (c.idsOf f).map (·.text)) ∨
      ∃ k i, l = r.shownFiles.length + k ∧ r.instances[k]? = some i ∧
        group = [i.function.text] := by
  rcases Nat.lt_or_ge l r.shownFiles.length with hlt | hge
  · have hl := List.getElem?_eq_getElem hlt
    rw [getElem?_groups_file hl] at h
    exact Or.inl ⟨_, hl, (Option.some.inj h).symm⟩
  · obtain ⟨k, rfl⟩ := Nat.exists_eq_add_of_le hge
    rw [getElem?_groups_instance] at h
    obtain ⟨i, hi, hgroup⟩ := Option.map_eq_some_iff.mp h
    exact Or.inr ⟨k, i, rfl, hi, hgroup.symm⟩

theorem text_mem_map_iff {xs : List QualifiedId} : x.text ∈ xs.map (·.text) ↔ x ∈ xs := by
  rw [List.mem_map]
  constructor
  · rintro ⟨y, hy, htext⟩
    exact QualifiedId.text_injective htext ▸ hy
  · exact fun hx => ⟨x, hx, rfl⟩

/-- An entity without instances is last in the group of its file. -/
theorem FileReport.lastGroup_plain (hx : x ∈ c.entityIds)
    (hplain : ∀ i ∈ r.instances, i.function ≠ x) {k : Nat}
    (hk : r.shownFiles[k]? = some x.sourcePath) :
    ColoredGraph.lastGroup (r.groups c) x.text = k + 1 := by
  refine ColoredGraph.lastGroup_eq (getElem?_groups_file hk)
    (text_mem_map_iff.mpr (Context.mem_idsOf.mpr ⟨hx, rfl⟩)) fun l group hl hgroup hmem => ?_
  rcases of_getElem?_groups hgroup with ⟨f, hf, rfl⟩ | ⟨j, i, -, hi, rfl⟩
  -- no other file has the entity
  · have hpath := (Context.mem_idsOf.mp (text_mem_map_iff.mp hmem)).2
    rw [← hpath, ← hk] at hf
    have hlt := (List.getElem?_eq_some_iff.mp hk).1
    have heq := (List.getElem?_inj hlt r.nodup_shownFiles).mp hf.symm
    omega
  · rw [List.mem_singleton] at hmem
    exact hplain i (List.mem_of_getElem? hi) (QualifiedId.text_injective hmem).symm

/-- The entity of an instance is last in the group of its last instance. -/
theorem FileReport.lastGroup_envious {k : Nat} {i : Instance ω} (hk : r.instances[k]? = some i)
    (hlast : ∀ (l : Nat) j, k < l → r.instances[l]? = some j → j.function ≠ i.function) :
    ColoredGraph.lastGroup (r.groups c) i.function.text = r.shownFiles.length + (k + 1) := by
  have hgroup : (r.groups c)[r.shownFiles.length + k]? = some [i.function.text] := by
    rw [getElem?_groups_instance, hk, Option.map_some]
  rw [← Nat.add_assoc]
  refine ColoredGraph.lastGroup_eq hgroup (List.mem_singleton.mpr rfl) fun l group hl h hmem => ?_
  rcases of_getElem?_groups h with ⟨f, hf, -⟩ | ⟨j, i', rfl, hi', rfl⟩
  · have hlt := (List.getElem?_eq_some_iff.mp hf).1
    omega
  · rw [List.mem_singleton] at hmem
    exact hlast j i' (by omega) hi' (QualifiedId.text_injective hmem).symm

/-- Where some item of a list has a property there is a last one that has it. -/
theorem exists_last {α : Type} {P : α → Prop} {as : List α} (h : ∃ a ∈ as, P a) :
    ∃ (k : Nat) (a : α), as[k]? = some a ∧ P a ∧ ∀ (l : Nat) b, k < l → as[l]? = some b → ¬P b := by
  induction as using List.reverseRecOn with
  | nil =>
    obtain ⟨a, ha, -⟩ := h
    cases ha
  | append_singleton as last ih =>
    by_cases hP : P last
    · refine ⟨as.length, last, List.getElem?_concat_length, hP, fun l b hl hb => ?_⟩
      have hlt := (List.getElem?_eq_some_iff.mp hb).1
      rw [List.length_append, List.length_singleton] at hlt
      omega
    · obtain ⟨a, ha, hPa⟩ := h
      have hmem : a ∈ as := (List.mem_append.mp ha).resolve_right fun h =>
        hP (List.mem_singleton.mp h ▸ hPa)
      obtain ⟨k, b, hk, hPb, hlast⟩ := ih ⟨a, hmem, hPa⟩
      have hlt := (List.getElem?_eq_some_iff.mp hk).1
      refine ⟨k, b, by rw [List.getElem?_append_left hlt, hk], hPb, fun l b' hl hb' => ?_⟩
      rcases Nat.lt_or_ge l as.length with hl' | hl'
      · rw [List.getElem?_append_left hl'] at hb'
        exact hlast l b' hl hb'
      · obtain ⟨hlen, hb'⟩ := List.getElem?_eq_some_iff.mp hb'
        rw [List.length_append, List.length_singleton] at hlen
        obtain rfl : l = as.length := by omega
        rw [List.getElem_concat_length rfl] at hb'
        exact hb' ▸ hP

/-- A graph shows a reported file if the file and those that its instances envy have tracked
entities, and its instances are of tracked entities of the file. -/
theorem FileReport.shownBy_coloredGraph (hfiles : ∀ f ∈ r.shownFiles, c.idsOf f ≠ [])
    (hown : ∀ i ∈ r.instances, i.function ∈ c.entityIds ∧ i.function.sourcePath = r.file) :
    r.ShownBy c (coloredGraph c r.file r.instances) := by
  rw [coloredGraph_eq hfiles]
  have hcolor : ∀ x ∈ r.shownIds c,
      (ColoredGraph.ofGroups (c.graphOf r.file (r.shownIds c)) (r.groups c)).color? x.text =
        some (ColoredGraph.lastGroup (r.groups c) x.text) := fun x hx => by
    rw [ColoredGraph.color?_ofGroups, if_pos (mem_labels_graphOf.mpr ⟨x, hx, rfl⟩)]
  have hfunction : ∀ i ∈ r.instances, i.function ∈ r.shownIds c := fun i hi =>
    mem_shownIds.mpr ⟨(hown i hi).1, mem_shownFiles.mpr (Or.inl (hown i hi).2)⟩
  refine ⟨rfl, r.shownFiles_sorted, fun _ => mem_shownFiles,
    Context.nodes_graphOf_sorted c _ _, fun n => ?_, fun l => ?_, ?_, ?_, ?_⟩
  · rw [show (ColoredGraph.ofGroups (c.graphOf r.file (r.shownIds c)) (r.groups c)).graph.nodes =
      (c.graphOf r.file (r.shownIds c)).nodes from rfl, Context.mem_nodes_graphOf]
    simp only [mem_shownIds, and_assoc]
  · rw [ColoredGraph.color?_ofGroups]
    show _ ↔ l ∈ (c.graphOf r.file (r.shownIds c)).labels
    split
    next hl => exact iff_of_true rfl hl
    next hl => exact iff_of_false Bool.false_ne_true hl
  · intro x hx hplain k hk
    rw [hcolor x (mem_shownIds.mpr ⟨hx, List.mem_of_getElem? hk⟩), lastGroup_plain hx hplain hk]
  · intro k i hk hlast
    rw [hcolor _ (hfunction i (List.mem_of_getElem? hk)), lastGroup_envious hk hlast]
  · intro i hi x hx hpath hplain
    obtain ⟨k, hk⟩ := List.getElem?_of_mem hpath
    obtain ⟨l, j, hl, hj, hlast⟩ := exists_last (P := fun j => j.function = i.function) ⟨i, hi, rfl⟩
    rw [hcolor x (mem_shownIds.mpr ⟨hx, hpath⟩), lastGroup_plain hx hplain hk,
      hcolor _ (hfunction i hi), ← hj, lastGroup_envious hl fun l' j' hl' hj' he =>
        hlast l' j' hl' hj' (he.trans hj)]
    have hlt := (List.getElem?_eq_some_iff.mp hk).1
    exact ⟨_, _, rfl, rfl, by omega⟩

end Shown

/-! ## The report -/

section Report

variable {c : Context ω} {is : List (Instance ω)}

/-- The reports of the groups, in the order of their paths. -/
def reports (is : List (Instance ω)) : List (FileReport ω) :=
  (byFile is).toList.map fun f => { file := f.1, instances := f.2 }

/-- There is a report on each file with instances, and it has all of them. -/
theorem mem_reports {f : FileReport ω} :
    f ∈ reports is ↔ f.instances ≠ [] ∧
      f.instances = is.filter fun i => i.function.sourcePath = f.file := by
  unfold reports
  rw [List.mem_map]
  constructor
  · rintro ⟨⟨path, js⟩, hf, rfl⟩
    exact mem_toList_byFile.mp hf
  · exact fun h => ⟨(f.file, f.instances), mem_toList_byFile.mpr h, rfl⟩

/-- Before they are ranked, reports are in the order of their files, one on each. -/
theorem reports_sorted (is : List (Instance ω)) : StrictlySorted (·.file) (reports is) :=
  List.pairwise_map.mpr (byFile_sorted is)

/-- There is a report for the file of each instance and for no other. -/
theorem exists_report_iff {path : String} :
    (∃ f ∈ reports is, f.file = path) ↔ ∃ i ∈ is, i.function.sourcePath = path := by
  constructor
  · rintro ⟨f, hf, rfl⟩
    obtain ⟨hne, hinstances⟩ := mem_reports.mp hf
    obtain ⟨i, hi⟩ := List.exists_mem_of_ne_nil _ hne
    rw [hinstances, List.mem_filter] at hi
    exact ⟨i, hi.1, of_decide_eq_true hi.2⟩
  · rintro ⟨i, hi, rfl⟩
    refine ⟨⟨i.function.sourcePath, is.filter fun j => j.function.sourcePath =
      i.function.sourcePath⟩, mem_reports.mpr ⟨?_, rfl⟩, rfl⟩
    exact List.ne_nil_of_mem (List.mem_filter.mpr ⟨hi, decide_eq_true rfl⟩)

/-- The reports have each instance once. -/
theorem reports_together (is : List (Instance ω)) :
    ((reports is).flatMap (·.instances)).Perm is := by
  have hnodup : ((reports is).map (·.file)).Nodup := (reports_sorted is).nodup_map
  have hparts : (reports is).flatMap (·.instances) =
      ((reports is).map (·.file)).flatMap fun path =>
        is.filter fun i => i.function.sourcePath = path := by
    rw [List.flatMap_map]
    exact List.flatMap_congr fun f hf => (mem_reports.mp hf).2
  rw [hparts]
  refine flatMap_filter_perm hnodup fun i hi => ?_
  obtain ⟨f, hf, hpath⟩ := exists_report_iff.mpr ⟨i, hi, rfl⟩
  exact List.mem_map.mpr ⟨f, hf, hpath⟩

/-- A report with more instances comes first, and at the same number the one on the smaller file. -/
theorem FileReport.order_eq_lt {f f' : FileReport ω} (hle : f'.count ≤ f.count)
    (htie : f.count ≤ f'.count → compare f.file f'.file = .lt) : f.order f' = .lt := by
  unfold order
  rcases Nat.lt_or_eq_of_le hle with hlt | heq
  · rw [Nat.compare_eq_lt.mpr hlt]
    rfl
  · rw [Nat.compare_eq_eq.mpr heq]
    exact htie (Nat.le_of_eq heq.symm)

/-- Reports with as many instances stay in the order of their paths. -/
theorem mergeSort_reports_sorted (is : List (Instance ω)) :
    ((reports is).mergeSort fun r s => s.count ≤ r.count).Pairwise fun f f' =>
      f.order f' = .lt := by
  refine (pairwise_mergeSort_of_pairwise (reports_sorted is) ?_ ?_).imp fun h => ?_
  · intro f f' f'' h h'
    rw [decide_eq_true_eq] at h h' ⊢
    exact h'.trans h
  · intro f f'
    rw [Bool.or_eq_true, decide_eq_true_eq, decide_eq_true_eq]
    exact Nat.le_total _ _
  · simp only [decide_eq_true_eq] at h
    exact FileReport.order_eq_lt h.1 h.2

variable [Weight ω]

/-- What is found in a well-formed context has a graph for each of its files. -/
theorem shownBy_of_mem_reports (hw : c.WellFormed) (hc : c.interner.Valid) {ratio : ω}
    {maxFiles : Nat} (hfind : find c ratio maxFiles = .ok is) {f : FileReport ω}
    (hf : f ∈ reports is) : f.ShownBy c (coloredGraph c f.file f.instances) := by
  obtain ⟨hne, hinstances⟩ := mem_reports.mp hf
  have hfound : ∀ i ∈ f.instances, i ∈ is ∧ i.function.sourcePath = f.file := by
    intro i hi
    rw [hinstances, List.mem_filter, decide_eq_true_eq] at hi
    exact hi
  have htracked := fun i hi => tracked_of_mem_find hw hc hfind (hfound i hi).1
  refine FileReport.shownBy_coloredGraph (fun path hpath => ?_)
    fun i hi => ⟨(htracked i hi).1, (hfound i hi).2⟩
  rcases FileReport.mem_shownFiles.mp hpath with rfl | ⟨i, hi, rfl⟩
  · obtain ⟨i, hi⟩ := List.exists_mem_of_ne_nil _ hne
    exact List.ne_nil_of_mem (Context.mem_idsOf.mpr ⟨(htracked i hi).1, (hfound i hi).2⟩)
  · obtain ⟨y, hy, hpath⟩ := (htracked i hi).2
    exact List.ne_nil_of_mem (Context.mem_idsOf.mpr ⟨hy, hpath⟩)

/-- With sound thresholds the search succeeds in a well-formed context, and the report on it is
complete. -/
theorem exists_complete (hw : c.WellFormed) (hc : c.interner.Valid) {t : Thresholds ω}
    (ht : t.fault? = none) :
    ∃ is r, find c t.minEnvyRatio t.maxEnviedFiles = .ok is ∧ analyze t c = .ok r ∧
      r.Complete c is := by
  obtain ⟨is, hfind⟩ := exists_find ht c
  have hgraphs : ((byFile is).toList.map fun f => coloredGraph c f.1 f.2) =
      (reports is).map fun f => coloredGraph c f.file f.instances := by
    unfold reports
    rw [List.map_map]
    rfl
  have hmem : ∀ f, f ∈ (reports is).mergeSort (fun r s => s.count ≤ r.count) ↔ f ∈ reports is :=
    fun f => List.mem_mergeSort
  refine ⟨is, ⟨(reports is).mergeSort fun r s => s.count ≤ r.count,
    (reports is).map fun f => coloredGraph c f.file f.instances⟩, hfind, ?_, ?_⟩
  · unfold analyze
    rw [hfind, ← hgraphs]
    rfl
  refine ⟨mergeSort_reports_sorted is, fun path => ?_, fun f hf => ?_, ?_, ?_, fun f hf => ?_,
    fun g hg => ?_⟩
  · simp only [hmem]
    exact exists_report_iff
  · exact (mem_reports.mp ((hmem f).mp hf)).2
  · exact ((List.mergeSort_perm _ _).flatMap_right _).trans (reports_together is)
  · exact List.pairwise_map.mpr (reports_sorted is)
  · have hf := (hmem f).mp hf
    exact ⟨_, List.mem_map.mpr ⟨f, hf, rfl⟩, shownBy_of_mem_reports hw hc hfind hf⟩
  · obtain ⟨f, hf, rfl⟩ := List.mem_map.mp hg
    exact ⟨f, (hmem f).mpr hf, shownBy_of_mem_reports hw hc hfind hf⟩

end Report

end FeatureEnvy

namespace ChangeCounter

/-- A function is edited together with one of another file, and that one with its neighbor. -/
def enviousHistory : List Revision :=
  [.ofEdits [.editEntity sampleH, .editEntity sampleF],
    .ofEdits [.editEntity sampleF, .editEntity sampleG]]

/-- The function envies the other file, and nothing else is found. -/
theorem exists_find_enviousHistory :
    ∃ c is, ((start {} 2).run []).processAll enviousHistory = .ok c ∧
      FeatureEnvy.find (c.finish 1 (0 : Rat)) 1 1 = .ok is ∧
      is.map (fun i => (i.function, i.enviedFile)) = [(sampleH, "a.rs")] := by
  have hfound : (((start {} 2).run []).processAll enviousHistory).toOption.map (fun c =>
      (FeatureEnvy.find (c.finish 1 (0 : Rat)) 1 1).toOption.map fun is =>
        is.map fun i => (i.function, i.enviedFile)) = some (some [(sampleH, "a.rs")]) := by
    decide +kernel
  obtain ⟨c, h, hfound⟩ := exists_ok hfound
  obtain ⟨is, hfind, hfound⟩ := exists_ok hfound
  exact ⟨c, is, h, hfind, hfound⟩

end ChangeCounter

end Cochange
