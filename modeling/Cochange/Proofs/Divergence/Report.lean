import Cochange.Config.Basic
import Cochange.DivergentChange
import Cochange.Proofs.Files.Projection
import Cochange.Proofs.Graph.Coloring
import Cochange.Proofs.Graph.Disjoint

/-!
# The report on divergent change

The report has one entry and one colored graph for each source file with tracked entities
(`Report.Complete`). The graph shows these entities, and the color of an entity tells its
responsibility: the position of the blob that holds it, or the number behind all blobs if it is in
the anti-blob (`FileReport.ShownBy`).

Colors are those of the last group that holds a label. An anti-blob may share labels with blobs and
then wins, since it is the last group. Two blobs never share a label, so the position of a blob is
the color of all its labels that are not in the anti-blob.
-/

namespace Cochange

namespace DivergentChange

variable {ω : Type}

/-- The order of reports: from the most responsibilities to the fewest, then by path. -/
def FileReport.order (r s : FileReport ω) : Ordering :=
  (compare s.responsibilities r.responsibilities).then (compare r.file s.file)

/-- A graph shows the tracked entities of a reported file and nothing else, each in a color. That of
an entity of the anti-blob is the number behind all blobs; that of any other entity of a blob is the
position of this blob, which is the only one that holds it; all others have color zero. -/
structure FileReport.ShownBy (c : Context ω) (r : FileReport ω) (g : ColoredGraph ω) : Prop where
  label : g.graph.label = r.file
  shows : c.Shows g.graph
  colored : ∀ l, (g.color? l).isSome = true ↔ l ∈ g.graph.labels
  one_blob : ∀ (i j : Nat) a b, r.blobs[i]? = some a → r.blobs[j]? = some b →
    ∀ l ∈ a.nodes, l ∈ b.nodes → i = j
  color_antiBlob : ∀ x ∈ c.entityIds, x.sourcePath = r.file →
    (∃ a ∈ r.antiBlob, x.text ∈ a.nodes) → g.color? x.text = some (r.blobs.length + 1)
  color_blob : ∀ x ∈ c.entityIds, x.sourcePath = r.file → (∀ a ∈ r.antiBlob, x.text ∉ a.nodes) →
    ∀ (k : Nat) b, r.blobs[k]? = some b → x.text ∈ b.nodes → g.color? x.text = some (k + 1)
  color_plain : ∀ x ∈ c.entityIds, x.sourcePath = r.file → (∀ a ∈ r.antiBlob, x.text ∉ a.nodes) →
    (∀ b ∈ r.blobs, x.text ∉ b.nodes) → g.color? x.text = some 0

/-- A report has one entry and one graph for each source file with tracked entities, in order. The
entry has the blobs and the anti-blob of the graph, counts them, and is shown by the graph. -/
structure Report.Complete [Weight ω] (t : Thresholds ω) (c : Context ω) (r : Report ω) : Prop where
  sorted : r.files.Pairwise fun f f' => f.order f' = .lt
  once : (r.files.map (·.file)).Nodup
  paths : ∀ path, (∃ f ∈ r.files, f.file = path) ↔ ∃ x ∈ c.entityIds, x.sourcePath = path
  graphs : r.coloredGraphs.map (·.graph) = c.fileGraphs
  graphs_sorted : StrictlySorted (·.graph.label) r.coloredGraphs
  graph_paths : ∀ path, (∃ g ∈ r.coloredGraphs, g.graph.label = path) ↔
    ∃ x ∈ c.entityIds, x.sourcePath = path
  value : ∀ f ∈ r.files, f.responsibilities = f.blobs.length + f.antiBlob.toList.length
  found : ∀ f ∈ r.files, ∀ g ∈ r.coloredGraphs, g.graph.label = f.file →
    g.graph.findBlobs t.minBlobDensity = .ok f.blobs ∧
      g.graph.findAntiBlob t.maxAntiCoupling t.minAntiBlobSize = .ok f.antiBlob
  shown : ∀ f ∈ r.files, ∀ g ∈ r.coloredGraphs, g.graph.label = f.file → f.ShownBy c g

/-! ## The colors of responsibilities -/

section Colors

variable {r : FileReport ω} {label : String}

/-- The groups that give the colors: the blobs, and behind them the anti-blob. -/
def FileReport.groups (r : FileReport ω) : List (List String) :=
  (r.blobs ++ r.antiBlob.toList).map fun s => s.nodes.toList

/-- Each blob is the group with its number. -/
theorem FileReport.getElem?_groups_blob {k : Nat} {b : Subgraph ω} (hk : r.blobs[k]? = some b) :
    r.groups[k]? = some b.nodes.toList := by
  unfold groups
  rw [List.getElem?_map, List.getElem?_append_left (List.getElem?_eq_some_iff.mp hk).1, hk]
  rfl

/-- The anti-blob is the group behind the blobs. -/
theorem FileReport.getElem?_groups_antiBlob {a : Subgraph ω} (ha : a ∈ r.antiBlob) :
    r.groups[r.blobs.length]? = some a.nodes.toList := by
  unfold groups
  rw [List.getElem?_map, List.getElem?_append_right (Nat.le_refl _), Nat.sub_self,
    Option.mem_def.mp ha]
  rfl

/-- Every group is that of a blob or of the anti-blob. -/
theorem FileReport.of_getElem?_groups {l : Nat} {group : List String}
    (h : r.groups[l]? = some group) :
    (∃ b, r.blobs[l]? = some b ∧ group = b.nodes.toList) ∨
      l = r.blobs.length ∧ ∃ a ∈ r.antiBlob, group = a.nodes.toList := by
  rcases Nat.lt_or_ge l r.blobs.length with hlt | hge
  · have hl := List.getElem?_eq_getElem hlt
    rw [getElem?_groups_blob hl] at h
    exact Or.inl ⟨_, hl, (Option.some.inj h).symm⟩
  · unfold groups at h
    rw [List.getElem?_map, List.getElem?_append_right hge] at h
    obtain ⟨s, hs, hgroup⟩ := Option.map_eq_some_iff.mp h
    -- there is one anti-blob at most
    cases ha : r.antiBlob with
    | none =>
      rw [ha] at hs
      cases hs
    | some a =>
      rw [ha, Option.toList_some, List.getElem?_singleton] at hs
      split at hs
      next hzero =>
        rw [← Option.some.inj hs] at hgroup
        exact Or.inr ⟨by omega, a, rfl, hgroup.symm⟩
      next => cases hs

/-- A label of the anti-blob is last in the anti-blob. -/
theorem FileReport.lastGroup_antiBlob (h : ∃ a ∈ r.antiBlob, label ∈ a.nodes) :
    ColoredGraph.lastGroup r.groups label = r.blobs.length + 1 := by
  obtain ⟨a, ha, hmem⟩ := h
  refine ColoredGraph.lastGroup_eq (getElem?_groups_antiBlob ha)
    (Std.ExtTreeSet.mem_toList.mpr hmem) fun l group hl hgroup => ?_
  rcases of_getElem?_groups hgroup with ⟨b, hb, -⟩ | ⟨heq, -⟩
  · have hlt := (List.getElem?_eq_some_iff.mp hb).1
    omega
  · omega

/-- Any other label of a blob is last in this blob, as blobs are disjoint. -/
theorem FileReport.lastGroup_blob (hblobs : Graph.DisjointNodes r.blobs)
    (hanti : ∀ a ∈ r.antiBlob, label ∉ a.nodes) {k : Nat} {b : Subgraph ω}
    (hk : r.blobs[k]? = some b) (hmem : label ∈ b.nodes) :
    ColoredGraph.lastGroup r.groups label = k + 1 := by
  refine ColoredGraph.lastGroup_eq (getElem?_groups_blob hk)
    (Std.ExtTreeSet.mem_toList.mpr hmem) fun l group hl hgroup hlabel => ?_
  rcases of_getElem?_groups hgroup with ⟨b', hb', rfl⟩ | ⟨-, a, ha, rfl⟩
  · rw [Std.ExtTreeSet.mem_toList] at hlabel
    have heq := Graph.eq_of_mem_blobs hblobs hk hb' hmem hlabel
    omega
  · exact hanti a ha (Std.ExtTreeSet.mem_toList.mp hlabel)

/-- A label in no blob and not in the anti-blob has the first color. -/
theorem FileReport.lastGroup_plain (hanti : ∀ a ∈ r.antiBlob, label ∉ a.nodes)
    (hblobs : ∀ b ∈ r.blobs, label ∉ b.nodes) : ColoredGraph.lastGroup r.groups label = 0 := by
  refine ColoredGraph.lastGroup_eq_zero fun group hgroup hlabel => ?_
  obtain ⟨l, hl⟩ := List.getElem?_of_mem hgroup
  rcases of_getElem?_groups hl with ⟨b, hb, rfl⟩ | ⟨-, a, ha, rfl⟩
  · exact hblobs b (List.mem_of_getElem? hb) (Std.ExtTreeSet.mem_toList.mp hlabel)
  · exact hanti a ha (Std.ExtTreeSet.mem_toList.mp hlabel)

/-- A graph that shows the entities of a reported file, colored by the groups of the report. -/
theorem FileReport.shownBy_ofGroups {c : Context ω} {g : Graph ω} (hlabel : g.label = r.file)
    (hg : c.Shows g) (hblobs : Graph.DisjointNodes r.blobs) :
    r.ShownBy c (.ofGroups g r.groups) := by
  have hcolor : ∀ x ∈ c.entityIds, x.sourcePath = r.file →
      (ColoredGraph.ofGroups g r.groups).color? x.text =
        some (ColoredGraph.lastGroup r.groups x.text) := by
    intro x hx hpath
    have hnode := (hg.mem_nodes _).mpr ⟨x, hx, hpath.trans hlabel.symm, rfl⟩
    rw [ColoredGraph.color?_ofGroups, if_pos (Graph.mem_labels.mpr ⟨_, hnode, rfl⟩)]
  refine ⟨hlabel, hg, fun l => ?_, fun i j a b hi hj l ha hb => ?_, fun x hx hpath hanti => ?_,
    fun x hx hpath hanti k b hk hmem => ?_, fun x hx hpath hanti hplain => ?_⟩
  · rw [ColoredGraph.color?_ofGroups]
    show _ ↔ l ∈ g.labels
    split
    next hl => exact iff_of_true rfl hl
    next hl => exact iff_of_false Bool.false_ne_true hl
  · exact Graph.eq_of_mem_blobs hblobs hi hj ha hb
  · rw [hcolor x hx hpath, lastGroup_antiBlob hanti]
  · rw [hcolor x hx hpath, lastGroup_blob hblobs hanti hk hmem]
  · rw [hcolor x hx hpath, lastGroup_plain hanti hplain]

end Colors

/-! ## The report -/

/-- A list is gone through without error if each item gives a result, and the results are those of
the items in order when each tells its item. -/
theorem exists_mapM {ε α β : Type} {f : α → Except ε β} {back : β → α} {P : β → Prop} {as : List α}
    (h : ∀ a ∈ as, ∃ b, f a = .ok b ∧ back b = a ∧ P b) :
    ∃ bs, as.mapM f = .ok bs ∧ bs.map back = as ∧ ∀ b ∈ bs, P b := by
  induction as with
  | nil => exact ⟨[], rfl, rfl, fun b hb => absurd hb List.not_mem_nil⟩
  | cons a as ih =>
    obtain ⟨b, hb, hback, hP⟩ := h a List.mem_cons_self
    obtain ⟨bs, hbs, hbacks, hPs⟩ := ih fun a ha => h a (List.mem_cons_of_mem _ ha)
    refine ⟨b :: bs, ?_, ?_, List.forall_mem_cons.mpr ⟨hP, hPs⟩⟩
    · rw [List.mapM_cons, hb, hbs]
      rfl
    · rw [List.map_cons, hback, hbacks]

instance transCmp_order :
    Std.TransCmp (FileReport.order : FileReport ω → FileReport ω → Ordering) := by
  have hvalue : Std.TransCmp fun r s : FileReport ω =>
      compare s.responsibilities r.responsibilities :=
    transCmp_on (fun m n : Nat => compare n m) FileReport.responsibilities
  have hfile : Std.TransCmp fun r s : FileReport ω => compare r.file s.file :=
    transCmp_on compare FileReport.file
  exact inferInstanceAs (Std.TransCmp (compareLex _ _))

section Report

variable [Weight ω] {t : Thresholds ω} {c : Context ω}

/-- What the analysis of one graph gives: its blobs and its anti-blob, and itself in their colors. -/
structure Analyzed (t : Thresholds ω) (result : FileReport ω × ColoredGraph ω) : Prop where
  file : result.1.file = result.2.graph.label
  colored : result.2 = .ofGroups result.2.graph result.1.groups
  blobs : result.2.graph.findBlobs t.minBlobDensity = .ok result.1.blobs
  disjoint : Graph.DisjointNodes result.1.blobs
  antiBlob : result.2.graph.findAntiBlob t.maxAntiCoupling t.minAntiBlobSize =
    .ok result.1.antiBlob

/-- The thresholds that are valid. -/
theorem Thresholds.fault?_eq_none_iff :
    t.fault? = none ↔ Weight.isNonnegative t.minBlobDensity = true ∧
      Weight.isNonnegative t.maxAntiCoupling = true ∧ t.minAntiBlobSize ≠ 0 := by
  unfold fault?
  cases Weight.isNonnegative t.minBlobDensity with
  | false => simp
  | true =>
    cases Weight.isNonnegative t.maxAntiCoupling with
    | false => simp
    | true => by_cases hsize : t.minAntiBlobSize = 0 <;> simp [hsize]

/-- With valid thresholds the analysis of a graph with distinct labels succeeds. -/
theorem exists_analyzeGraph (ht : t.fault? = none) {g : Graph ω} (hg : g.Distinct) :
    ∃ result, analyzeGraph t g = .ok result ∧ result.2.graph = g ∧ Analyzed t result := by
  obtain ⟨hdensity, hcoupling, hsize⟩ := Thresholds.fault?_eq_none_iff.mp ht
  obtain ⟨blobs, hblobs, hdisjoint⟩ := Graph.exists_findBlobs_disjoint hg hdensity
  obtain ⟨antiBlob, hanti⟩ := g.exists_findAntiBlob hcoupling hsize
  refine ⟨(⟨g.label, blobs, antiBlob⟩, .ofGroups g (FileReport.groups ⟨g.label, blobs, antiBlob⟩)),
    ?_, rfl, rfl, rfl, hblobs, hdisjoint, hanti⟩
  unfold analyzeGraph
  rw [hblobs, hanti]
  rfl

/-- Reports and graphs are about the same files in the same order. -/
theorem map_file_eq {results : List (FileReport ω × ColoredGraph ω)}
    (hanalyzed : ∀ result ∈ results, Analyzed t result) :
    (results.map (·.1)).map (·.file) = results.map (·.2.graph.label) := by
  rw [List.map_map]
  exact List.map_congr_left fun result hresult => (hanalyzed result hresult).file

/-- The results for all graphs make a complete report. -/
theorem complete_of_analyzed {results : List (FileReport ω × ColoredGraph ω)}
    (hshows : ∀ g ∈ c.fileGraphs, c.Shows g) (hgraphs : results.map (·.2.graph) = c.fileGraphs)
    (hanalyzed : ∀ result ∈ results, Analyzed t result) :
    Report.Complete t c ⟨(results.map (·.1)).mergeSort FileReport.le, results.map (·.2)⟩ := by
  have hlabels : results.map (·.2.graph.label) = c.fileGraphs.map (·.label) := by
    rw [← hgraphs, List.map_map]
    rfl
  have hfiles := map_file_eq hanalyzed
  have hnodup : (results.map (·.2.graph.label)).Nodup := hlabels ▸ c.fileGraphs_sorted.nodup_map
  have hperm : ((results.map (·.1)).mergeSort FileReport.le).Perm (results.map (·.1)) :=
    List.mergeSort_perm _ _
  have hpath : ∀ path, path ∈ results.map (·.2.graph.label) ↔
      ∃ x ∈ c.entityIds, x.sourcePath = path := by
    intro path
    rw [hlabels, List.mem_map, Context.exists_fileGraph_iff]
  -- a graph with the label of a report is the one that was analyzed for it
  have hpair : ∀ f ∈ (results.map (·.1)).mergeSort FileReport.le, ∀ g ∈ results.map (·.2),
      g.graph.label = f.file → Analyzed t (f, g) ∧ g.graph ∈ c.fileGraphs := by
    intro f hf g hg hlabel
    obtain ⟨result, hresult, rfl⟩ := List.mem_map.mp (hperm.mem_iff.mp hf)
    obtain ⟨result', hresult', rfl⟩ := List.mem_map.mp hg
    rw [(hanalyzed result hresult).file] at hlabel
    obtain rfl := List.inj_on_of_nodup_map hnodup hresult' hresult hlabel
    exact ⟨hanalyzed result' hresult, hgraphs ▸ List.mem_map_of_mem hresult⟩
  refine ⟨?_, ?_, fun path => ?_, ?_, ?_, fun path => ?_, fun f _ => ?_, fun f hf g hg hlabel => ?_,
    fun f hf g hg hlabel => ?_⟩
  · have hdistinct : (results.map (·.1)).Pairwise fun f f' => f.order f' ≠ .eq := by
      rw [← hfiles] at hnodup
      refine (List.pairwise_map.mp hnodup).imp fun hne he => hne ?_
      exact Std.compare_eq_iff_eq.mp (Ordering.then_eq_eq.mp he).2
    exact pairwise_lt_mergeSort FileReport.order hdistinct
  · rw [(hperm.map _).nodup_iff, hfiles]
    exact hnodup
  · rw [← hpath, ← hfiles, ← List.mem_map, (hperm.map _).mem_iff]
  · rw [List.map_map, ← hgraphs]
    rfl
  · have hsorted := c.fileGraphs_sorted
    rw [← hgraphs] at hsorted
    exact List.pairwise_map.mpr (List.pairwise_map.mp hsorted)
  · rw [← hpath, ← List.mem_map, List.map_map]
    rfl
  · unfold FileReport.responsibilities
    cases f.antiBlob <;> rfl
  · obtain ⟨h, -⟩ := hpair f hf g hg hlabel
    exact ⟨h.blobs, h.antiBlob⟩
  · obtain ⟨h, hgraph⟩ := hpair f hf g hg hlabel
    have hcolored : g = .ofGroups g.graph f.groups := h.colored
    rw [hcolored]
    exact FileReport.shownBy_ofGroups hlabel (hshows g.graph hgraph) h.disjoint

/-- With valid thresholds the analysis of a well-formed context succeeds, and its report is
complete. -/
theorem exists_complete (hw : c.WellFormed) (hc : c.interner.Valid) (ht : t.fault? = none) :
    ∃ r, analyze t c = .ok r ∧ r.Complete t c := by
  have hshows : ∀ g ∈ c.fileGraphs, c.Shows g := fun g => Context.shows_of_mem_fileGraphs hw hc
  obtain ⟨results, hresults, hgraphs, hanalyzed⟩ :=
    exists_mapM fun g hg => exists_analyzeGraph ht (hshows g hg).nodes_sorted.nodup_map
  refine ⟨_, ?_, complete_of_analyzed hshows hgraphs hanalyzed⟩
  unfold analyze
  rw [hresults]

end Report

end DivergentChange

namespace ChangeCounter

/-- For every context that is made from a history, by thresholds any number of times, and for all
valid thresholds of its own, the analysis succeeds, and its report is complete: each file with
tracked entities has its entry and its graph, whose colors are the responsibilities. -/
theorem finish_analyze_colored {ω : Type} [Weight ω] (ls : Languages) (limit : Nat)
    (before rs : List Revision) (c : ChangeCounter)
    (hcounted : ((start ls limit).run before).processAll rs = .ok c) (minRevisions : Nat)
    (minCoupling : ω) (fs : List (Nat × ω)) (t : DivergentChange.Thresholds ω)
    (ht : t.fault? = none) :
    ∃ r, DivergentChange.analyze t
        (fs.foldl (fun c f => c.filter f.1 f.2) (c.finish minRevisions minCoupling)) = .ok r ∧
      r.Complete t (fs.foldl (fun c f => c.filter f.1 f.2) (c.finish minRevisions minCoupling)) := by
  obtain ⟨hwell, hvalid⟩ := finish_filters_valid hcounted minRevisions minCoupling fs
  exact DivergentChange.exists_complete hwell hvalid ht

/-- Two functions of a file are edited together. -/
def coupledHistory : List Revision :=
  [.ofEdits [.editEntity sampleF, .editEntity sampleG]]

/-- The two functions are a blob and also the anti-blob, so that they have the second color. -/
theorem finish_analyze_colored_overlap :
    ∃ c r, ((start {} 2).run []).processAll coupledHistory = .ok c ∧
      DivergentChange.analyze ⟨1, 1, 2⟩ (c.finish 1 (0 : Rat)) = .ok r ∧
      ∃ f ∈ r.files, f.file = "a.rs" ∧ f.responsibilities = 2 ∧
        ∃ g ∈ r.coloredGraphs, g.graph.label = "a.rs" ∧ g.color? sampleF.text = some 2 := by
  have hgraphs : (((start {} 2).run []).processAll coupledHistory).toOption.map (fun c =>
      (c.finish 1 (0 : Rat)).fileGraphs.map fun g => (g.label,
        (g.findBlobs 1).toOption.map (·.length),
        ((g.findAntiBlob 1 2).toOption.bind id).map (·.nodes.toList))) =
      some [("a.rs", some 1, some ["a.rs#f()", "a.rs#g()"])] := by
    decide +kernel
  have htracked : (((start {} 2).run []).processAll coupledHistory).toOption.map (fun c =>
      (c.finish 1 (0 : Rat)).entityIds.toList.contains sampleF) = some true := by
    decide +kernel
  obtain ⟨c, h, hgraphs⟩ := exists_ok hgraphs
  obtain ⟨r, hr, hcomplete⟩ := finish_analyze_colored {} 2 [] coupledHistory c h 1 (0 : Rat) []
    ⟨1, 1, 2⟩ (by decide +kernel)
  have hcomplete : r.Complete ⟨1, 1, 2⟩ (c.finish 1 (0 : Rat)) := hcomplete
  rw [h] at htracked
  obtain ⟨g₀, hg₀, hparts⟩ := List.map_eq_singleton_iff.mp hgraphs
  obtain ⟨g, hg, hgraph⟩ := List.map_eq_singleton_iff.mp (hcomplete.graphs.trans hg₀)
  obtain ⟨hlabel, hparts⟩ := Prod.mk.inj hparts
  rw [← hgraph] at hlabel hparts
  have hmem : g ∈ r.coloredGraphs := hg ▸ List.mem_cons_self
  obtain ⟨f, hfile, hpath⟩ := (hcomplete.paths "a.rs").mpr
    ((hcomplete.graph_paths "a.rs").mp ⟨g, hmem, hlabel⟩)
  have hsame : g.graph.label = f.file := hlabel.trans hpath.symm
  obtain ⟨hblobs, hanti⟩ := hcomplete.found f hfile g hmem hsame
  obtain ⟨hblobs', hanti'⟩ := Prod.mk.inj hparts
  rw [hblobs] at hblobs'
  rw [hanti] at hanti'
  obtain ⟨a, ha, hnodes⟩ := Option.map_eq_some_iff.mp hanti'
  have hlength : f.blobs.length = 1 := Option.some.inj hblobs'
  have ha : f.antiBlob = some a := ha
  refine ⟨c, r, h, hr, f, hfile, hpath, ?_, g, hmem, hlabel, ?_⟩
  · rw [hcomplete.value f hfile, hlength, ha]
    rfl
  · rw [(hcomplete.shown f hfile g hmem hsame).color_antiBlob sampleF
      (Std.ExtTreeSet.mem_toList.mp (List.contains_iff_mem.mp (Option.some.inj htracked)))
      hpath.symm ⟨a, ha, ?_⟩, hlength]
    rw [← Std.ExtTreeSet.mem_toList, hnodes]
    decide

end ChangeCounter

end Cochange
