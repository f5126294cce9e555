import Cochange.Config.Basic
import Cochange.Proofs.Density.Blobs
import Cochange.Proofs.Graph.Induced

/-!
# Degrees in a blob and in the whole graph

Degrees are computed edge by edge, in a table of all labels. What stands there in the end is what
each label is coupled with the labels of the graph (`getElem?_degrees`). A part of a graph keeps the
couplings between its labels (`joined_intersect`), so this holds of the degrees in a blob as well.

No label of a blob has there less than half the density of the blob. Without any coupling below
zero its degree in the graph is no less, and the anti-blob, whose labels have small degrees, is
apart from the blobs (`blobs_avoid_antiBlob`).
-/

namespace Cochange

namespace Graph

/-- The labels of a graph as a finite set. -/
def nodeSet {ω : Type} (g : Graph ω) : Finset String :=
  g.labels.toList.toFinset

variable {g : Graph Rat} {l : String}

theorem mem_nodeSet {ω : Type} {g : Graph ω} : l ∈ g.nodeSet ↔ l ∈ g.labels := by
  rw [nodeSet, List.mem_toFinset, Std.ExtTreeSet.mem_toList]

/-! ## The table of degrees -/

section Table

variable {d : Std.ExtTreeMap String Rat} {T : Finset String}

/-- The step: an edge raises the degree of a label by what it couples the label with the others. -/
theorem getElem?_addEdge (hd : ∀ l, l ∈ d ↔ l ∈ T) (e : Edge Rat) (l : String) :
    (addEdge d e)[l]? = d[l]?.map (· + ∑ v ∈ T, couples e l v) := by
  have hcontains : ∀ l, d.contains l = true ↔ l ∈ T := fun l =>
    Std.ExtTreeMap.contains_iff_mem.trans (hd l)
  rw [sum_couples_row, addEdge]
  split
  next hin =>
    obtain ⟨hne, hs, ht⟩ := hin
    rw [hcontains] at hs ht
    simp only [Std.ExtTreeMap.getElem?_alter, Std.compare_eq_iff_eq, hne, hs, ht, and_true,
      ne_eq, not_false_eq_true, if_true]
    -- at most one end of the edge is the label
    by_cases htl : e.target = l
    · have hsl : e.source ≠ l := fun hsl => hne (hsl.trans htl.symm)
      simp only [htl, hsl, if_true, if_false, zero_add]
      rfl
    · by_cases hsl : e.source = l
      · simp only [htl, hsl, if_true, if_false, add_zero]
        rfl
      · simp [htl, hsl]
  next hout =>
    cases hl : d[l]? with
    | none => rfl
    | some x =>
      have hlT : l ∈ T := by
        rw [← hd, Std.ExtTreeMap.mem_iff_isSome_getElem?, hl]
        rfl
      -- an edge with an end outside adds nothing, also at its other end
      rw [hcontains, hcontains] at hout
      rw [Option.map_some]
      by_cases hne : e.source = e.target
      · rw [if_neg fun h => h hne, add_zero]
      · have hs : ¬(e.source = l ∧ e.target ∈ T) := fun h => hout ⟨hne, h.1 ▸ hlT, h.2⟩
        have ht : ¬(e.target = l ∧ e.source ∈ T) := fun h => hout ⟨hne, h.2, h.1 ▸ hlT⟩
        rw [if_pos hne, if_neg hs, if_neg ht, add_zero, add_zero]

/-- Adding an edge gives no new label a degree. -/
theorem mem_addEdge (hd : ∀ l, l ∈ d ↔ l ∈ T) (e : Edge Rat) (l : String) :
    l ∈ addEdge d e ↔ l ∈ T := by
  rw [← hd, Std.ExtTreeMap.mem_iff_isSome_getElem?, Std.ExtTreeMap.mem_iff_isSome_getElem?,
    getElem?_addEdge hd, Option.isSome_map]

/-- The run: the degree of a label is raised by what all edges couple it with the others. -/
theorem getElem?_foldl_addEdge (edges : List (Edge Rat)) (l : String) :
    ∀ {d : Std.ExtTreeMap String Rat}, (∀ l, l ∈ d ↔ l ∈ T) →
      (edges.foldl addEdge d)[l]? =
        d[l]?.map (· + (edges.map fun e => ∑ v ∈ T, couples e l v).sum) := by
  induction edges with
  | nil =>
    intro d _
    cases hl : d[l]? <;> simp [hl]
  | cons e edges ih =>
    intro d hd
    rw [List.foldl_cons, ih (mem_addEdge hd e), getElem?_addEdge hd, Option.map_map, List.map_cons,
      List.sum_cons]
    exact congrArg (Option.map · _) (funext fun x => add_assoc ..)

end Table

/-- A degree is made up edge by edge. -/
theorem degreeIn_joined (g : Graph Rat) (T : Finset String) (l : String) :
    degreeIn g.joined T l = (g.edges.map fun e => ∑ v ∈ T, couples e l v).sum := by
  unfold degreeIn
  simp only [joined_eq_sum]
  induction g.edges with
  | nil => simp
  | cons e es ih => simp only [List.map_cons, List.sum_cons, Finset.sum_add_distrib, ih]

/-- The degree of a label is what it is coupled with the labels of the graph. -/
theorem getElem?_degrees (g : Graph Rat) (l : String) :
    g.degrees[l]? = if l ∈ g.labels then some (degreeIn g.joined g.nodeSet l) else none := by
  have hstart : ∀ l, (g.nodes.foldl (fun d n => d.insert n.label Weight.zero)
      (∅ : Std.ExtTreeMap String Rat))[l]? = if l ∈ g.labels then some (0 : Rat) else none :=
    getElem?_uniform g Weight.zero
  unfold degrees
  rw [getElem?_foldl_addEdge (T := g.nodeSet), hstart, degreeIn_joined]
  · split
    next => rw [Option.map_some, zero_add]
    next => rfl
  · intro l
    rw [mem_nodeSet, Std.ExtTreeMap.mem_iff_isSome_getElem?, hstart]
    split
    next hl => exact iff_of_true rfl hl
    next hl => exact iff_of_false (by simp) hl

/-! ## Parts of a graph -/

/-- A part of a graph keeps the couplings between its labels. -/
theorem joined_intersect {ls : LabelSet} {u v : String} (hu : u ∈ (g.intersect ls).labels)
    (hv : v ∈ (g.intersect ls).labels) : (g.intersect ls).joined u v = g.joined u v := by
  unfold joined
  show (if u = v then 0 else (((g.edges.filter _).filter _).map _).sum) = _
  rw [List.filter_filter]
  refine if_congr Iff.rfl rfl (congrArg (fun es : List (Edge Rat) => (es.map _).sum) ?_)
  refine List.filter_congr fun e _ => ?_
  rw [Bool.and_eq_left_iff_imp, decide_eq_true_eq, Bool.and_eq_true]
  -- an edge between two labels of the part belongs to the part
  rintro (⟨rfl, rfl⟩ | ⟨rfl, rfl⟩)
  · exact ⟨Std.ExtTreeSet.contains_iff_mem.mpr hu, Std.ExtTreeSet.contains_iff_mem.mpr hv⟩
  · exact ⟨Std.ExtTreeSet.contains_iff_mem.mpr hv, Std.ExtTreeSet.contains_iff_mem.mpr hu⟩

/-- Labels are joined by no negative coupling if no edge has one. -/
theorem joined_nonneg (hg : ∀ e ∈ g.edges, 0 ≤ e.coupling) (u v : String) : 0 ≤ g.joined u v := by
  rw [joined_eq_sum]
  refine List.sum_nonneg fun c hc => ?_
  obtain ⟨e, he, rfl⟩ := List.mem_map.mp hc
  unfold couples
  split
  next => exact hg e he
  next => exact le_refl 0

/-! ## Degrees of blobs -/

section Blobs

variable {minDensity : Rat} {c : LabelSet} {b : Subgraph Rat}

/-- The degree of a label in the part of the graph that a blob is. -/
theorem getElem?_degrees_intersect (hb : ∀ l ∈ b.nodes, l ∈ g.labels) (hl : l ∈ b.nodes) :
    (g.intersect b.nodes).degrees[l]? = some (degreeIn g.joined b.nodeSet l) := by
  have hmem : ∀ l, l ∈ (g.intersect b.nodes).labels ↔ l ∈ b.nodes := fun l =>
    mem_labels_intersect.trans (and_iff_right_of_imp (hb l))
  have hset : (g.intersect b.nodes).nodeSet = b.nodeSet := by
    ext l
    rw [mem_nodeSet, hmem, Subgraph.mem_nodeSet]
  rw [getElem?_degrees, if_pos ((hmem l).mpr hl), hset]
  refine congrArg some (Finset.sum_congr rfl fun v hv => ?_)
  exact joined_intersect ((hmem l).mpr hl) ((hmem v).mpr (Subgraph.mem_nodeSet.mp hv))

/-- No label has a larger degree in a blob than in the whole graph. -/
theorem degreeIn_nodeSet_le (hg : ∀ e ∈ g.edges, 0 ≤ e.coupling)
    (hb : ∀ l ∈ b.nodes, l ∈ g.labels) (l : String) :
    degreeIn g.joined b.nodeSet l ≤ degreeIn g.joined g.nodeSet l :=
  degreeIn_mono (joined_nonneg hg) (fun v hv => mem_nodeSet.mpr (hb v (Subgraph.mem_nodeSet.mp hv))) l

end Blobs

/-! ## The anti-blob -/

section AntiBlob

variable {maxCoupling : Rat}

/-- The labels whose coupling with all other labels together is within a bound. -/
def weakLabels (g : Graph Rat) (maxCoupling : Rat) : Finset String :=
  g.nodeSet.filter fun l => degreeIn g.joined g.nodeSet l ≤ maxCoupling

/-- Weak labels are those of nodes with a small degree. -/
theorem mem_weakLabels :
    l ∈ g.weakLabels maxCoupling ↔ l ∈ g.labels ∧ degreeIn g.joined g.nodeSet l ≤ maxCoupling := by
  rw [weakLabels, Finset.mem_filter, mem_nodeSet]

/-- The labels that are chosen from the table of degrees are the weakly coupled ones. -/
theorem mem_chosen :
    l ∈ (Std.ExtTreeSet.ofList <| g.degrees.toList.filterMap fun d =>
        if Weight.le d.2 maxCoupling then some d.1 else none : LabelSet) ↔
      l ∈ g.weakLabels maxCoupling := by
  rw [mem_ofList_iff, List.mem_filterMap, mem_weakLabels]
  constructor
  · intro ⟨⟨l', d⟩, hd, hsome⟩
    obtain ⟨hle, hl⟩ := Option.ite_none_right_eq_some.mp hsome
    obtain rfl : l' = l := Option.some.inj hl
    rw [Std.ExtTreeMap.mem_toList_iff_getElem?_eq_some, getElem?_degrees,
      Option.ite_none_right_eq_some] at hd
    exact ⟨hd.1, Option.some.inj hd.2 ▸ of_decide_eq_true hle⟩
  · intro ⟨hl, hle⟩
    refine ⟨(l, degreeIn g.joined g.nodeSet l), ?_, if_pos (decide_eq_true hle)⟩
    rw [Std.ExtTreeMap.mem_toList_iff_getElem?_eq_some, getElem?_degrees, if_pos hl]

/-- The labels of the anti-blob have small degrees. -/
theorem degree_le_of_mem_antiBlob {minSize : Nat} {a : Subgraph Rat}
    (ha : g.findAntiBlob maxCoupling minSize = .ok (some a)) (hl : l ∈ a.nodes) :
    degreeIn g.joined g.nodeSet l ≤ maxCoupling := by
  unfold findAntiBlob at ha
  split at ha
  next => cases ha
  next =>
    split at ha
    next => cases ha
    next =>
      dsimp only at ha
      split at ha
      next => cases ha
      next =>
        cases ha
        exact (mem_weakLabels.mp (mem_chosen.mp hl)).2

end AntiBlob

/-- Every label of a blob has in the blob at least half its density for its degree, and so at least
half the least density of blobs. If no coupling is below zero and the anti-blob is made of labels
with less than that, as it is by default, then none of its labels is in a blob. -/
theorem blobs_avoid_antiBlob (g : Graph Rat) (minDensity : Rat) (hg : g.Distinct)
    (hsize : g.nodes.length ≤ maxSearchedNodes) (hd : 0 ≤ minDensity) :
    (∃ blobs, g.findBlobs minDensity = .ok blobs ∧
      (∀ b ∈ blobs, ∀ l ∈ b.nodes, ∃ d, (g.intersect b.nodes).degrees[l]? = some d ∧
        b.density / 2 ≤ d ∧ minDensity / 2 ≤ d) ∧
      ∀ (maxCoupling : Rat) (minSize : Nat) (a : Subgraph Rat),
        (∀ e ∈ g.edges, 0 ≤ e.coupling) → maxCoupling < minDensity / 2 →
        g.findAntiBlob maxCoupling minSize = .ok (some a) →
        ∀ b ∈ blobs, ∀ l ∈ b.nodes, l ∉ a.nodes) ∧
    Weight.lt Config.default.divergentChange.maxAntiCoupling
      (Weight.divNat Config.default.divergentChange.minBlobDensity 2) = true := by
  obtain ⟨blobs, hblobs, hall⟩ := exists_findBlobs hsize hd
  have hlabels : ∀ b ∈ blobs, ∀ l ∈ b.nodes, l ∈ g.labels := by
    intro b hb l hl
    obtain ⟨c, hc, hblob⟩ := hall b hb
    exact mem_labels_of_mem_component hg hc (hblob.mem l hl)
  have hdegree : ∀ b ∈ blobs, ∀ l ∈ b.nodes, b.density / 2 ≤ degreeIn g.joined b.nodeSet l ∧
      minDensity / 2 ≤ degreeIn g.joined b.nodeSet l := by
    intro b hb l hl
    obtain ⟨c, hc, hblob⟩ := hall b hb
    have hhalf := hblob.degree l hl
    have hdense := hblob.dense
    exact ⟨hhalf, by linarith⟩
  refine ⟨⟨blobs, hblobs, fun b hb l hl => ⟨_, getElem?_degrees_intersect (hlabels b hb) hl,
    hdegree b hb l hl⟩, ?_⟩, by decide +kernel⟩
  intro maxCoupling minSize a hnonneg hlow ha b hb l hl hla
  have hsmall := degree_le_of_mem_antiBlob ha hla
  have hlarge := degreeIn_nodeSet_le hnonneg (hlabels b hb) l
  have hhalf := (hdegree b hb l hl).2
  linarith

/-- Four nodes that are strongly coupled, and two that are not. -/
def groupGraph : Graph Rat where
  label := "group"
  nodes := ["a", "b", "c", "d", "e", "f"].map fun l => ⟨l, 9⟩
  edges :=
    [⟨"a", "b", 7, 1⟩, ⟨"a", "c", 7, 1⟩, ⟨"a", "d", 7, 1⟩, ⟨"b", "c", 7, 1⟩, ⟨"b", "d", 7, 1⟩,
      ⟨"c", "d", 7, 1⟩, ⟨"d", "e", 5, 1 / 8⟩, ⟨"f", "e", 5, 1 / 4⟩]

/-- With the default thresholds the four are a blob and the other two the anti-blob. -/
theorem blobs_avoid_antiBlob_group :
    ∃ blobs a, groupGraph.findBlobs (5 / 2) = .ok blobs ∧
      blobs.map (·.nodes.toList) = [["a", "b", "c", "d"]] ∧
      groupGraph.findAntiBlob (1 / 2) 2 = .ok (some a) ∧ a.nodes.toList = ["e", "f"] ∧
      ∀ b ∈ blobs, ∀ l ∈ b.nodes, l ∉ a.nodes := by
  have hdistinct : groupGraph.Distinct := by decide
  obtain ⟨⟨blobs, hblobs, -, havoid⟩, -⟩ := blobs_avoid_antiBlob groupGraph (5 / 2) hdistinct
    (by decide) (by decide +kernel)
  have hnodes : ((groupGraph.findBlobs (5 / 2)).toOption.getD []).map (·.nodes.toList) =
      [["a", "b", "c", "d"]] := by decide +kernel
  rw [hblobs] at hnodes
  have hanti : ((groupGraph.findAntiBlob (1 / 2) 2).toOption.getD none).map (·.nodes.toList) =
      some ["e", "f"] := by decide +kernel
  cases ha : groupGraph.findAntiBlob (1 / 2) 2 with
  | error why =>
    rw [ha] at hanti
    cases hanti
  | ok found =>
    rw [ha] at hanti
    obtain ⟨a, rfl, hlist⟩ := Option.map_eq_some_iff.mp hanti
    exact ⟨blobs, a, hblobs, hnodes, rfl, hlist,
      havoid (1 / 2) 2 a (by decide +kernel) (by decide +kernel) ha⟩

end Graph

end Cochange
