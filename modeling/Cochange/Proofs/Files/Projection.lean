import Cochange.Proofs.Contexts.Answers
import Cochange.Proofs.Files.Independence
import Cochange.Proofs.Graph.Numbers

/-!
# The graphs of a context

The graphs of the source files show what a context tells about entities of one file, and nothing
else (`Context.Projected`): one graph for each path, each tracked entity once in the graph of its
file, each recorded pair of entities of one file once in the graph of that file. Edges are gathered
from one of their ends only, the smaller one. That none is missed or found twice rests on what a
well-formed context promises: pairs are recorded in both orientations, between tracked entities,
and never of an entity with itself.

Every context that is made from a history, by thresholds any number of times, is of this kind
(`finish_projected`).
-/

namespace Cochange

/-- Whether an edge joins two labels. -/
def Edge.between {ω : Type} (e : Edge ω) (a b : String) : Bool :=
  (e.source = a ∧ e.target = b) ∨ (e.source = b ∧ e.target = a)

/-- An edge is between its ends in both orders. -/
theorem Edge.between_comm {ω : Type} (e : Edge ω) (a b : String) :
    e.between a b = e.between b a := by
  unfold Edge.between
  rw [decide_eq_decide]
  exact or_comm

/-- The order of edges: by source and then by target. -/
def edgeOrder {ω : Type} (e f : Edge ω) : Ordering :=
  (compare e.source f.source).then (compare e.target f.target)

/-- In strict order no edge is met twice. -/
theorem nodup_of_edgeOrder {ω : Type} {es : List (Edge ω)}
    (hes : es.Pairwise fun e f => edgeOrder e f = .lt) : es.Nodup := by
  refine hes.imp fun {e f} hlt he => ?_
  rw [he, edgeOrder, Std.ReflOrd.compare_self, Std.ReflOrd.compare_self] at hlt
  cases hlt

/-- The only item with some property in a list without repetition. -/
theorem filter_eq_singleton {α : Type} {as : List α} {p : α → Bool} {a : α} (has : as.Nodup)
    (h : ∀ b, b ∈ as ∧ p b = true ↔ b = a) : as.filter p = [a] := by
  have hperm : (as.filter p).Perm [a] := by
    refine (List.perm_ext_iff_of_nodup (has.filter p) (List.nodup_singleton a)).mpr fun b => ?_
    rw [List.mem_filter, h, List.mem_singleton]
  exact List.perm_singleton.mp hperm

namespace Context

variable {ω : Type} {c : Context ω} {x y : QualifiedId} {v : ω}

/-! ## Recorded pairs -/

section Recorded

variable [Weight ω]

/-- A coupling is found in both orientations. -/
theorem couplingCell?_comm (hw : c.WellFormed) (x y : QualifiedId) :
    c.couplingCell? x y = c.couplingCell? y x := by
  unfold couplingCell? cell?
  cases c.interner.get? x with
  | none => cases c.interner.get? y <;> rfl
  | some a =>
    cases c.interner.get? y with
    | none => rfl
    | some b => exact hw.coupling_symm a b

/-- A joint count is found in both orientations. -/
theorem jointChangeCount_comm (hw : c.WellFormed) (x y : QualifiedId) :
    c.jointChangeCount x y = c.jointChangeCount y x := by
  unfold jointChangeCount
  cases c.interner.get? x with
  | none => cases c.interner.get? y <;> rfl
  | some a =>
    cases c.interner.get? y with
    | none => rfl
    | some b => exact congrArg (Option.getD · 0) (hw.joint_symm a b)

/-- A recorded pair has a number of joint changes, its entities have counts, and its coupling is the
quotient of these. -/
theorem WellFormed.counted (hw : c.WellFormed) (hv : c.couplingCell? x y = some v) :
    ∃ n k l, c.jointCell? x y = some n ∧ c.count? x = some k ∧ c.count? y = some l ∧
      PairBounds n k l ∧ v = Weight.ratio n (k + l - n) := by
  obtain ⟨a, ha, hv⟩ := Option.bind_eq_some_iff.mp hv
  obtain ⟨b, hb, hv⟩ := Option.bind_eq_some_iff.mp hv
  have hjoint : (c.joint.get? a b).isSome = true := by
    rw [hw.same_cells, hv]
    rfl
  obtain ⟨n, hn⟩ := Option.isSome_iff_exists.mp hjoint
  obtain ⟨k, l, hk, hl, hbounds, hratio⟩ := hw.cell a b n hn
  refine ⟨n, k, l, ?_, ?_, ?_, hbounds, Option.some.inj (hv.symm.trans hratio)⟩
  · rw [jointCell?, cell?, ha, hb]
    exact hn
  · rw [count?, ha]
    exact hk
  · rw [count?, hb]
    exact hl

/-- A recorded pair is one of two different tracked entities. -/
theorem WellFormed.recorded (hw : c.WellFormed) (hv : c.couplingCell? x y = some v) :
    x ≠ y ∧ c.contains x = true ∧ c.contains y = true := by
  obtain ⟨n, k, l, hn, hk, hl, -⟩ := hw.counted hv
  refine ⟨?_, ?_, ?_⟩
  · intro he
    obtain ⟨a, ha, hn⟩ := Option.bind_eq_some_iff.mp hn
    obtain ⟨b, hb, hn⟩ := Option.bind_eq_some_iff.mp hn
    rw [he, hb] at ha
    rw [Option.some.inj ha, hw.no_diagonal a] at hn
    cases hn
  · rw [contains_eq, hk]
    rfl
  · rw [contains_eq, hl]
    rfl

end Recorded

/-! ## The graph of some entities -/

section Graph

variable {ids : Std.ExtTreeSet QualifiedId} {label : String}

/-- The nodes of a graph of entities are these with their counts. -/
theorem mem_nodes_graphOf {n : Node} :
    n ∈ (c.graphOf label ids).nodes ↔ ∃ x ∈ ids, n = ⟨x.text, c.changeCount x⟩ := by
  show n ∈ ids.toList.map _ ↔ _
  rw [List.mem_map]
  simp only [Std.ExtTreeSet.mem_toList, eq_comm]

/-- The nodes of a graph of entities are in order, each once. -/
theorem nodes_graphOf_sorted (c : Context ω) (label : String) (ids : Std.ExtTreeSet QualifiedId) :
    StrictlySorted (·.label) (c.graphOf label ids).nodes :=
  List.pairwise_map.mpr (sorted_toList ids)

/-- An entity has an edge to each larger one that it is recorded with. -/
theorem mem_edgesFrom (hc : c.interner.Valid) {e : Edge ω} :
    e ∈ c.edgesFrom ids x ↔ ∃ y v, c.contains x = true ∧ c.couplingCell? x y = some v ∧
      compare x y = .lt ∧ y ∈ ids ∧ e = ⟨x.text, y.text, c.jointChangeCount x y, v⟩ := by
  rw [edgesFrom_eq, List.mem_filterMap, Prod.exists]
  refine exists_congr fun y => exists_congr fun v => ?_
  rw [List.mem_filter, mem_neighbors hc, Bool.and_eq_true, Std.ExtTreeSet.contains_iff_mem,
    Ordering.isLT_iff_eq_lt, Option.some.injEq, and_assoc, and_assoc, and_assoc, eq_comm (a := e)]

/-- The edges of a graph of entities are the recorded couplings among them, from the smaller to the
larger. -/
theorem mem_edges_graphOf (hc : c.interner.Valid) {e : Edge ω} :
    e ∈ (c.graphOf label ids).edges ↔ ∃ x ∈ ids, ∃ y v, c.contains x = true ∧
      c.couplingCell? x y = some v ∧ compare x y = .lt ∧ y ∈ ids ∧
        e = ⟨x.text, y.text, c.jointChangeCount x y, v⟩ := by
  show e ∈ ids.toList.flatMap _ ↔ _
  simp only [List.mem_flatMap, Std.ExtTreeSet.mem_toList, mem_edgesFrom hc]

/-- The edges of a graph of entities are in strict order. -/
theorem edges_graphOf_sorted (hc : c.interner.Valid) :
    (c.graphOf label ids).edges.Pairwise fun e f => edgeOrder e f = .lt := by
  show (ids.toList.flatMap (c.edgesFrom ids)).Pairwise _
  refine List.pairwise_flatMap.mpr
    ⟨fun x _ => ?_, (sorted_toList ids).imp fun {x x'} hlt e he f hf => ?_⟩
  -- edges of one entity are in the order of its neighbours
  · rw [edgesFrom_eq, List.filterMap_eq_map', List.pairwise_map]
    refine ((strictlySorted_neighbors hc x).filter _).imp fun {n n'} hlt => ?_
    show (compare x.text x.text).then (compare n.1.text n'.1.text) = .lt
    rw [Std.ReflOrd.compare_self]
    exact hlt
  · obtain ⟨y, v, -, -, -, -, rfl⟩ := (mem_edgesFrom hc).mp he
    obtain ⟨y', v', -, -, -, -, rfl⟩ := (mem_edgesFrom hc).mp hf
    have hsource : compare x.text x'.text = .lt := hlt
    show (compare x.text x'.text).then (compare y.text y'.text) = .lt
    rw [hsource]
    rfl

end Graph

/-! ## The graphs of the source files -/

/-- A graph shows the tracked entities of the file that it is labelled with, and their recorded
pairs: each once and in order, and nothing else. -/
structure Shows (c : Context ω) (g : Graph ω) : Prop where
  nodes_sorted : StrictlySorted (·.label) g.nodes
  mem_nodes : ∀ n, n ∈ g.nodes ↔
    ∃ x ∈ c.entityIds, x.sourcePath = g.label ∧ n = ⟨x.text, c.changeCount x⟩
  edges_sorted : g.edges.Pairwise fun e f => edgeOrder e f = .lt
  mem_edges : ∀ e, e ∈ g.edges ↔
    ∃ x y v, (x, y, v) ∈ c.cells ∧ compare x y = .lt ∧ x.sourcePath = g.label ∧
      y.sourcePath = g.label ∧ e = ⟨x.text, y.text, c.jointChangeCount x y, v⟩
  ends : ∀ e ∈ g.edges, compare e.source e.target = .lt ∧ e.source ∈ g.labels ∧
    e.target ∈ g.labels

/-- The graphs of a context are those of the source files of its tracked entities, one for each
path and in the order of the paths. Every tracked entity is one node of one of them, and every
recorded pair of entities of one file is one edge of one of them. -/
structure Projected (c : Context ω) : Prop where
  sorted : StrictlySorted (·.label) c.fileGraphs
  paths : ∀ path, (∃ g ∈ c.fileGraphs, g.label = path) ↔ ∃ x ∈ c.entityIds, x.sourcePath = path
  shows : ∀ g ∈ c.fileGraphs, c.Shows g
  node : ∀ x ∈ c.entityIds, ∃ g ∈ c.fileGraphs, g.label = x.sourcePath ∧
    g.nodes.filter (·.label = x.text) = [⟨x.text, c.changeCount x⟩] ∧
    ∀ g' ∈ c.fileGraphs, x.text ∈ g'.labels → g' = g
  edge : ∀ x y v, (x, y, v) ∈ c.cells → x.sourcePath = y.sourcePath →
    ∃ g ∈ c.fileGraphs, g.label = x.sourcePath ∧
      (∃ e, g.edges.filter (·.between x.text y.text) = [e] ∧
        e.revisions = c.jointChangeCount x y ∧ e.coupling = v) ∧
      ∀ g' ∈ c.fileGraphs, (∃ e ∈ g'.edges, e.between x.text y.text = true) → g' = g

section Files

variable {g : Graph ω} {path : String}

/-- The entities of a file are the tracked ones with its path. -/
theorem mem_idsOf : x ∈ c.idsOf path ↔ x ∈ c.entityIds ∧ x.sourcePath = path := by
  rw [idsOf, List.mem_filter, Std.ExtTreeSet.mem_toList, decide_eq_true_eq]

/-- The graphs are those of the files that have tracked entities. -/
theorem mem_fileGraphs :
    g ∈ c.fileGraphs ↔ ∃ path, c.idsOf path ≠ [] ∧
      g = c.graphOf path (Std.ExtTreeSet.ofList (c.idsOf path)) := by
  unfold fileGraphs
  simp only [List.mem_map, Prod.exists, Std.ExtTreeMap.mem_toList_iff_getElem?_eq_some,
    getElem?_idsByFile]
  refine exists_congr fun path => ?_
  constructor
  · intro ⟨ids, hids, hg⟩
    obtain ⟨hne, hids⟩ := Option.ite_none_left_eq_some.mp hids
    exact ⟨hne, by rw [← hg, ← Option.some.inj hids]⟩
  · intro ⟨hne, hg⟩
    exact ⟨_, if_neg hne, hg.symm⟩

/-- The graphs are in the order of their files, one for each. -/
theorem fileGraphs_sorted (c : Context ω) : StrictlySorted (·.label) c.fileGraphs := by
  have hfiles : c.idsByFile.toList.Pairwise fun f f' => compare f.1 f'.1 = .lt :=
    Std.ExtTreeMap.ordered_keys_toList
  exact List.pairwise_map.mpr hfiles

/-- A file has a graph if one of its entities is tracked. -/
theorem exists_fileGraph_iff :
    (∃ g ∈ c.fileGraphs, g.label = path) ↔ ∃ x ∈ c.entityIds, x.sourcePath = path := by
  simp only [mem_fileGraphs]
  constructor
  · intro ⟨g, ⟨p, hne, hg⟩, hlabel⟩
    obtain ⟨x, hx⟩ := List.exists_mem_of_ne_nil _ hne
    have hp : p = path := by
      rw [← hlabel, hg]
      rfl
    rw [hp] at hx
    exact ⟨x, mem_idsOf.mp hx⟩
  · intro ⟨x, hx⟩
    exact ⟨_, ⟨path, List.ne_nil_of_mem (mem_idsOf.mpr hx), rfl⟩, rfl⟩

/-- Two graphs of one file are the same. -/
theorem eq_of_label {g' : Graph ω} (hg : g ∈ c.fileGraphs) (hg' : g' ∈ c.fileGraphs)
    (h : g'.label = g.label) : g' = g := by
  obtain ⟨path, -, rfl⟩ := mem_fileGraphs.mp hg
  obtain ⟨path', -, rfl⟩ := mem_fileGraphs.mp hg'
  have hpath : path' = path := h
  rw [hpath]

/-- A label of a graph that shows a file is that of one of its entities. -/
theorem Shows.of_mem_labels (hg : c.Shows g) (hx : x.text ∈ g.labels) :
    x ∈ c.entityIds ∧ x.sourcePath = g.label := by
  obtain ⟨n, hn, hlabel⟩ := Graph.mem_labels.mp hx
  obtain ⟨x', hx', hpath, rfl⟩ := (hg.mem_nodes n).mp hn
  rw [QualifiedId.text_injective hlabel] at hx' hpath
  exact ⟨hx', hpath⟩

/-- An entity has exactly one node. -/
theorem Shows.filter_nodes (hg : c.Shows g) (hx : x ∈ c.entityIds) (hpath : x.sourcePath = g.label) :
    g.nodes.filter (·.label = x.text) = [⟨x.text, c.changeCount x⟩] := by
  refine filter_eq_singleton hg.nodes_sorted.nodup_map.of_map fun n => ?_
  rw [decide_eq_true_eq, hg.mem_nodes]
  constructor
  · intro ⟨⟨x', _, _, hn⟩, hlabel⟩
    rw [hn] at hlabel
    rw [hn, QualifiedId.text_injective hlabel]
  · intro hn
    exact ⟨⟨x, hx, hpath, hn⟩, by rw [hn]⟩

/-- A recorded pair has exactly one edge. -/
theorem Shows.filter_edges (hg : c.Shows g) (hc : c.interner.Valid) (hv : (x, y, v) ∈ c.cells)
    (hlt : compare x y = .lt) (hx : x.sourcePath = g.label) (hy : y.sourcePath = g.label) :
    g.edges.filter (·.between x.text y.text) =
      [⟨x.text, y.text, c.jointChangeCount x y, v⟩] := by
  refine filter_eq_singleton (nodup_of_edgeOrder hg.edges_sorted) fun e => ?_
  rw [hg.mem_edges, Edge.between, decide_eq_true_eq]
  constructor
  · intro ⟨⟨x', y', v', hv', hlt', _, _, he⟩, hends⟩
    rw [he] at hends
    rcases hends with ⟨hs, ht⟩ | ⟨hs, ht⟩
    · obtain rfl := QualifiedId.text_injective hs
      obtain rfl := QualifiedId.text_injective ht
      rw [mem_cells hc] at hv hv'
      rw [hv] at hv'
      rw [he, Option.some.inj hv']
    -- the other way round the larger id would come first
    · obtain rfl := QualifiedId.text_injective hs
      obtain rfl := QualifiedId.text_injective ht
      rw [Std.OrientedOrd.eq_swap, hlt] at hlt'
      cases hlt'
  · intro he
    exact ⟨⟨x, y, v, hv, hlt, hx, hy, he⟩, by rw [he]; exact Or.inl ⟨rfl, rfl⟩⟩

variable [Weight ω]

/-- Every graph of a well-formed context shows its file. -/
theorem shows_of_mem_fileGraphs (hw : c.WellFormed) (hc : c.interner.Valid)
    (hg : g ∈ c.fileGraphs) : c.Shows g := by
  obtain ⟨path, -, rfl⟩ := mem_fileGraphs.mp hg
  have hmem : ∀ x, x ∈ (Std.ExtTreeSet.ofList (c.idsOf path) : Std.ExtTreeSet QualifiedId) ↔
      x ∈ c.entityIds ∧ x.sourcePath = path := fun x => by rw [mem_ofList_iff, mem_idsOf]
  have hedges : ∀ e, e ∈ (c.graphOf path (Std.ExtTreeSet.ofList (c.idsOf path))).edges ↔
      ∃ x y v, (x, y, v) ∈ c.cells ∧ compare x y = .lt ∧ x.sourcePath = path ∧
        y.sourcePath = path ∧ e = ⟨x.text, y.text, c.jointChangeCount x y, v⟩ := by
    intro e
    rw [mem_edges_graphOf hc]
    constructor
    · intro ⟨x, hx, y, v, _, hv, hlt, hy, he⟩
      exact ⟨x, y, v, (mem_cells hc).mpr hv, hlt, ((hmem x).mp hx).2, ((hmem y).mp hy).2, he⟩
    · intro ⟨x, y, v, hv, hlt, hx, hy, he⟩
      have hv := (mem_cells hc).mp hv
      obtain ⟨-, hcx, hcy⟩ := hw.recorded hv
      exact ⟨x, (hmem x).mpr ⟨(mem_entityIds hc).mpr hcx, hx⟩, y, v, hcx, hv, hlt,
        (hmem y).mpr ⟨(mem_entityIds hc).mpr hcy, hy⟩, he⟩
  have hnodes : ∀ x ∈ c.entityIds, x.sourcePath = path →
      x.text ∈ (c.graphOf path (Std.ExtTreeSet.ofList (c.idsOf path))).labels := by
    intro x hx hpath
    exact Graph.mem_labels.mpr ⟨_, mem_nodes_graphOf.mpr ⟨x, (hmem x).mpr ⟨hx, hpath⟩, rfl⟩, rfl⟩
  refine ⟨nodes_graphOf_sorted c _ _, fun n => ?_, edges_graphOf_sorted hc, hedges, fun e he => ?_⟩
  · simp only [mem_nodes_graphOf, hmem, and_assoc]
    rfl
  · obtain ⟨x, y, v, hv, hlt, hx, hy, rfl⟩ := (hedges e).mp he
    obtain ⟨-, hcx, hcy⟩ := hw.recorded ((mem_cells hc).mp hv)
    exact ⟨hlt, hnodes x ((mem_entityIds hc).mpr hcx) hx, hnodes y ((mem_entityIds hc).mpr hcy) hy⟩

/-- The graphs of a well-formed context are those of its source files. -/
theorem WellFormed.projected (hw : c.WellFormed) (hc : c.interner.Valid) : c.Projected := by
  have hshows : ∀ g ∈ c.fileGraphs, c.Shows g := fun g hg => shows_of_mem_fileGraphs hw hc hg
  have hone : ∀ (x : QualifiedId) g, g ∈ c.fileGraphs → g.label = x.sourcePath →
      ∀ g' ∈ c.fileGraphs, x.text ∈ g'.labels → g' = g := by
    intro x g hg hlabel g' hg' hx
    refine eq_of_label hg hg' ?_
    rw [hlabel]
    exact ((hshows g' hg').of_mem_labels hx).2.symm
  refine ⟨fileGraphs_sorted c, fun path => exists_fileGraph_iff, hshows, ?_, ?_⟩
  · intro x hx
    obtain ⟨g, hg, hlabel⟩ := exists_fileGraph_iff.mpr ⟨x, hx, rfl⟩
    exact ⟨g, hg, hlabel, (hshows g hg).filter_nodes hx hlabel.symm, hone x g hg hlabel⟩
  · intro x y v hv hpath
    have hv' := (mem_cells hc).mp hv
    obtain ⟨hne, hcx, -⟩ := hw.recorded hv'
    obtain ⟨g, hg, hlabel⟩ := exists_fileGraph_iff.mpr ⟨x, (mem_entityIds hc).mpr hcx, rfl⟩
    refine ⟨g, hg, hlabel, ?_, fun g' hg' ⟨e, he, hends⟩ => hone x g hg hlabel g' hg' ?_⟩
    · cases hlt : compare x y with
      | lt =>
        exact ⟨_, (hshows g hg).filter_edges hc hv hlt hlabel.symm
          (hpath.symm.trans hlabel.symm), rfl, rfl⟩
      | eq => exact absurd (Std.compare_eq_iff_eq.mp hlt) hne
      | gt =>
        have hback : (y, x, v) ∈ c.cells := by rw [mem_cells hc, couplingCell?_comm hw, hv']
        have hedges := (hshows g hg).filter_edges hc hback (Std.OrientedCmp.gt_iff_lt.mp hlt)
          (hpath.symm.trans hlabel.symm) hlabel.symm
        simp only [fun e : Edge ω => e.between_comm y.text x.text] at hedges
        exact ⟨_, hedges, jointChangeCount_comm hw y x, rfl⟩
    · obtain ⟨-, hs, ht⟩ := (hshows g' hg').ends e he
      rw [Edge.between, decide_eq_true_eq] at hends
      rcases hends with ⟨hsx, -⟩ | ⟨-, htx⟩
      · exact hsx ▸ hs
      · exact htx ▸ ht

end Files

/-- Thresholds do not change the handles. -/
theorem interner_foldl_filter [Weight ω] (fs : List (Nat × ω)) : ∀ c : Context ω,
    (fs.foldl (fun c f => c.filter f.1 f.2) c).interner = c.interner := by
  induction fs with
  | nil => exact fun _ => rfl
  | cons f fs ih => exact fun c => ih (c.filter f.1 f.2)

end Context

namespace ChangeCounter

variable {ω : Type} [Weight ω]

/-- A count without errors is the one that would go on behind them. -/
theorem run_of_processAll {rs : List Revision} : ∀ {c c' : ChangeCounter},
    c.processAll rs = .ok c' → c' = c.run rs := by
  induction rs with
  | nil => exact fun h => (Except.ok.inj h).symm
  | cons r rs ih =>
    intro c c' h
    rw [processAll] at h
    split at h
    next => cases h
    next c₁ hprocess =>
      rw [ih h, run, run, List.foldl_cons, hprocess]

/-- Every context that is made from a history, and every one made from it by thresholds, is
well-formed, and its handles stand for ids. Revisions that failed may have gone before. -/
theorem finish_filters_valid {ls : Languages} {limit : Nat} {before rs : List Revision}
    {c : ChangeCounter} (hcounted : ((start ls limit).run before).processAll rs = .ok c)
    (minRevisions : Nat) (minCoupling : ω) (fs : List (Nat × ω)) :
    (fs.foldl (fun c f => c.filter f.1 f.2) (c.finish minRevisions minCoupling)).WellFormed ∧
      (fs.foldl (fun c f => c.filter f.1 f.2)
        (c.finish minRevisions minCoupling)).interner.Valid := by
  have hsound : Sound (c, ∅) := by
    rw [run_of_processAll hcounted]
    exact ((sound_start ls limit).run before).run rs
  refine ⟨((context_wellFormed hsound).filter minRevisions minCoupling).foldl_filter fs, ?_⟩
  rw [Context.interner_foldl_filter]
  exact hsound.interner

/-- Every context that is made from a history, and every one made from it by thresholds, has its
graphs for its source files. Revisions that failed may have gone before. -/
theorem finish_projected (ls : Languages) (limit : Nat) (before rs : List Revision)
    (c : ChangeCounter) (hcounted : ((start ls limit).run before).processAll rs = .ok c)
    (minRevisions : Nat) (minCoupling : ω) (fs : List (Nat × ω)) :
    (fs.foldl (fun c f => c.filter f.1 f.2) (c.finish minRevisions minCoupling)).Projected := by
  obtain ⟨hwell, hvalid⟩ := finish_filters_valid hcounted minRevisions minCoupling fs
  exact hwell.projected hvalid

/-- Two functions of a file are edited together with one of another file, and then alone. -/
def pairedHistory : List Revision :=
  [.ofEdits [.editEntity sampleG, .editEntity sampleH, .editEntity sampleF],
    .ofEdits [.editEntity sampleF, .editEntity sampleG]]

/-- Also with what was counted of a history that failed, the pair is one edge of one graph. -/
theorem finish_projected_pair :
    ∃ c, ((start {} 2).run failingHistory).processAll pairedHistory = .ok c ∧
      ∃ g ∈ ((c.finish 1 (0 : Rat)).filter 2 (1 / 2)).fileGraphs, g.label = "a.rs" ∧
        ∃ e, g.edges.filter (·.between "a.rs#f()" "a.rs#g()") = [e] ∧ e.revisions = 3 ∧
          e.coupling = 3 / 4 := by
  have hcount : (((start {} 2).run failingHistory).processAll pairedHistory).toOption.map
      (fun c => (((c.finish 1 (0 : Rat)).filter 2 (1 / 2)).cells.contains (sampleF, sampleG, 3 / 4),
        ((c.finish 1 (0 : Rat)).filter 2 (1 / 2)).jointChangeCount sampleF sampleG)) =
      some (true, 3) := by decide +kernel
  obtain ⟨c, h, hcount⟩ := exists_ok hcount
  obtain ⟨hcell, hjoint⟩ := Prod.mk.inj hcount
  have hprojected := finish_projected {} 2 failingHistory pairedHistory c h 1 (0 : Rat)
    [(2, 1 / 2)]
  obtain ⟨g, hg, hlabel, ⟨e, he, hrevisions, hcoupling⟩, -⟩ :=
    hprojected.edge sampleF sampleG (3 / 4) (List.contains_iff_mem.mp hcell) rfl
  exact ⟨c, h, g, hg, hlabel, e, he, hrevisions.trans hjoint, hcoupling⟩

end ChangeCounter

end Cochange
