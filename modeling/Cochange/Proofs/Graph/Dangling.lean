import Cochange.Proofs.Graph.Induced

/-!
# Edges that lead to no node

An edge may name a label that is no node at one of its ends or at both. Nothing is said about such
edges where a graph is made, so each search has to pass over them by itself. The components, the
degrees and the blobs take no notice of them: they are the same without these edges.

So are the labels of the anti-blob, since they are chosen by degrees. Its density is not: there an
edge counts as soon as one of its ends belongs to the anti-blob, whatever the other one is
(`anti_blob_counts_dangling`). Without such an edge at the anti-blob nothing changes there either
(`intersect_labels_answers`).
-/

namespace Cochange

namespace Graph

variable {ω : Type} {g : Graph ω} {e : Edge ω}

/-- Whether both ends of an edge are nodes. -/
def Joins (g : Graph ω) (e : Edge ω) : Prop :=
  e.source ∈ g.labels ∧ e.target ∈ g.labels

/-- Whether both ends of an edge are nodes, as it is tested. -/
def joins (g : Graph ω) (e : Edge ω) : Bool :=
  g.labels.contains e.source && g.labels.contains e.target

/-- What is computed of an edge tells whether it joins two nodes. -/
theorem joins_iff : g.joins e = true ↔ g.Joins e := by
  rw [joins, Bool.and_eq_true, Std.ExtTreeSet.contains_iff_mem, Std.ExtTreeSet.contains_iff_mem]
  rfl

/-- The part with all labels is the graph without the edges that lead to no node. -/
theorem intersect_labels (g : Graph ω) :
    g.intersect g.labels = { g with edges := g.edges.filter g.joins } := by
  have hnodes : (g.intersect g.labels).nodes = g.nodes := by
    refine List.filter_eq_self.mpr fun n hn => ?_
    exact Std.ExtTreeSet.contains_iff_mem.mpr (mem_labels.mpr ⟨n, hn, rfl⟩)
  have hlabels : (g.intersect g.labels).labels = g.labels := by
    unfold labels at hnodes ⊢
    rw [hnodes]
  have hedges : (g.intersect g.labels).edges = g.edges.filter g.joins := by
    rw [edges_intersect, hlabels]
    rfl
  rw [← hnodes, ← hedges]
  rfl

/-- The edges from labels to other labels, whether these are nodes or not. -/
def touching (g : Graph ω) (ls : LabelSet) : List (Edge ω) :=
  g.edges.filter fun e => e.source ≠ e.target && (ls.contains e.source || ls.contains e.target)

/-- Without dangling edges, the edges that touch some labels are those among them that join nodes.
-/
theorem touching_intersect_labels (g : Graph ω) (ls : LabelSet) :
    (g.intersect g.labels).touching ls = (g.touching ls).filter g.joins := by
  rw [intersect_labels]
  unfold touching
  rw [List.filter_filter, List.filter_filter]
  exact List.filter_congr fun e _ => Bool.and_comm _ _

/-! ## Components -/

/-- Dangling edges join no positions. -/
theorem joinedPositions_intersect_labels (g : Graph ω) :
    (g.intersect g.labels).joinedPositions = g.joinedPositions := by
  rw [intersect_labels]
  refine filterMap_filter_of_none fun e _ hout => ?_
  split
  next hs ht =>
    exact absurd
      (joins_iff.mpr ⟨exists_position_iff.mp ⟨_, hs⟩, exists_position_iff.mp ⟨_, ht⟩⟩) hout
  next => rfl

/-- Dangling edges make no difference to the components. -/
theorem components_intersect_labels (g : Graph ω) :
    (g.intersect g.labels).components = g.components := by
  have hpartition : (g.intersect g.labels).partition = g.partition := by
    unfold partition
    rw [joinedPositions_intersect_labels, intersect_labels]
  unfold components classes
  rw [hpartition, intersect_labels]

/-! ## Blobs -/

/-- Dangling edges are no links. -/
theorem links_intersect_labels (g : Graph ω) :
    (g.intersect g.labels).links g.numbers = g.links g.numbers := by
  rw [intersect_labels]
  refine filterMap_filter_of_none fun e _ hout => ?_
  unfold linkOf?
  split
  next a b hs ht =>
    exact absurd (joins_iff.mpr ⟨exists_number_iff.mp ⟨a, hs⟩, exists_number_iff.mp ⟨b, ht⟩⟩) hout
  next => rfl

variable [Weight ω]

/-- Dangling edges make no difference to the blobs. -/
theorem findBlobs_intersect_labels (g : Graph ω) (minDensity : ω) :
    (g.intersect g.labels).findBlobs minDensity = g.findBlobs minDensity := by
  have hlabels : (g.intersect g.labels).labels = g.labels := by
    rw [intersect_labels]
    rfl
  have hnumbers : (g.intersect g.labels).numbers = g.numbers := by
    unfold numbers
    rw [hlabels]
  have hnodes : (g.intersect g.labels).nodes = g.nodes := by rw [intersect_labels]
  unfold findBlobs
  simp only [hnodes, hlabels, hnumbers, links_intersect_labels, components_intersect_labels]

/-! ## Degrees -/

/-- An edge makes no label one that has a degree, and none one that has not. -/
theorem contains_addEdge (d : Std.ExtTreeMap String ω) (e : Edge ω) (l : String) :
    (addEdge d e).contains l = d.contains l := by
  unfold addEdge
  split
  next hin =>
    simp only [Std.ExtTreeMap.contains_eq_isSome_getElem?, Std.ExtTreeMap.getElem?_alter]
    split
    next ht =>
      rw [← Std.compare_eq_iff_eq.mp ht]
      split <;> simp_all
    next =>
      split
      next hs => rw [← Std.compare_eq_iff_eq.mp hs, Option.isSome_map]
      next => rfl
  next => rfl

/-- Edges that lead to no node raise no degree, wherever they stand among the others. -/
theorem foldl_addEdge_joins (es : List (Edge ω)) : ∀ {d : Std.ExtTreeMap String ω},
    (∀ l, d.contains l = true ↔ l ∈ g.labels) →
      (es.filter g.joins).foldl addEdge d = es.foldl addEdge d := by
  induction es with
  | nil => exact fun _ => rfl
  | cons e es ih =>
    intro d hd
    have hnext : ∀ l, (addEdge d e).contains l = true ↔ l ∈ g.labels := by
      intro l
      rw [contains_addEdge, hd]
    rw [List.foldl_cons, ← ih hnext]
    by_cases hj : g.joins e = true
    · rw [List.filter_cons_of_pos hj, List.foldl_cons]
    · have hskip : addEdge d e = d := by
        refine if_neg fun hin => hj (joins_iff.mpr ?_)
        exact ⟨(hd _).mp hin.2.1, (hd _).mp hin.2.2⟩
      rw [List.filter_cons_of_neg hj, hskip]

/-- Dangling edges make no difference to the degrees. -/
theorem degrees_intersect_labels (g : Graph ω) :
    (g.intersect g.labels).degrees = g.degrees := by
  rw [intersect_labels]
  refine foldl_addEdge_joins g.edges fun l => ?_
  rw [Std.ExtTreeMap.contains_eq_isSome_getElem?, getElem?_uniform]
  split
  next hl => exact iff_of_true rfl hl
  next hl => exact iff_of_false (by simp) hl

/-! ## The anti-blob -/

/-- Some labels and how densely they are coupled by the edges that touch them. -/
def touched (g : Graph ω) (ls : LabelSet) : Subgraph ω where
  nodes := ls
  density := Weight.divNat (Weight.sum ((g.touching ls).map (·.coupling))) ls.size

/-- The labels of an anti-blob, which are chosen by the degrees alone. -/
def weaklyCoupled (degrees : Std.ExtTreeMap String ω) (maxCoupling : ω) (minSize : Nat) :
    Except (SearchError ω) (Option LabelSet) :=
  if !Weight.isNonnegative maxCoupling then .error (.badMaxCoupling maxCoupling)
  else if minSize = 0 then .error .zeroMinSize
  else
    let nodes : LabelSet := Std.ExtTreeSet.ofList <| degrees.toList.filterMap fun d =>
      if Weight.le d.2 maxCoupling then some d.1 else none
    if nodes.size < minSize then .ok none else .ok (some nodes)

/-- The nodes of an anti-blob are told by the degrees, its density by the edges that touch them. -/
theorem findAntiBlob_eq (g : Graph ω) (maxCoupling : ω) (minSize : Nat) :
    g.findAntiBlob maxCoupling minSize =
      (weaklyCoupled g.degrees maxCoupling minSize).map (Option.map g.touched) := by
  unfold findAntiBlob weaklyCoupled
  split
  next => rfl
  next =>
    split
    next => rfl
    next =>
      dsimp only
      split
      next => rfl
      next => rfl

/-- Where every edge joins two nodes, the density is that without the other edges. -/
theorem touched_intersect_labels {ls : LabelSet} (h : ∀ e ∈ g.touching ls, g.Joins e) :
    (g.intersect g.labels).touched ls = g.touched ls := by
  have hall : (g.touching ls).filter g.joins = g.touching ls :=
    List.filter_eq_self.mpr fun e he => joins_iff.mpr (h e he)
  unfold touched
  rw [touching_intersect_labels, hall]

/-- Edges that lead to no node change no component, no degree and no blob, and of the anti-blob
nothing but the density, which they change only where they touch it. -/
theorem intersect_labels_answers (g : Graph ω) :
    (g.intersect g.labels).components = g.components ∧
      (g.intersect g.labels).degrees = g.degrees ∧
      (∀ minDensity, (g.intersect g.labels).findBlobs minDensity = g.findBlobs minDensity) ∧
      ∀ maxCoupling minSize,
        (g.intersect g.labels).findAntiBlob maxCoupling minSize =
          (g.findAntiBlob maxCoupling minSize).map
            (Option.map fun a => (g.intersect g.labels).touched a.nodes) ∧
        ∀ a, g.findAntiBlob maxCoupling minSize = .ok (some a) →
          (∀ e ∈ g.touching a.nodes, g.Joins e) →
            (g.intersect g.labels).findAntiBlob maxCoupling minSize = .ok (some a) := by
  refine ⟨components_intersect_labels g, degrees_intersect_labels g,
    findBlobs_intersect_labels g, fun maxCoupling minSize => ?_⟩
  rw [findAntiBlob_eq, findAntiBlob_eq g, degrees_intersect_labels]
  cases weaklyCoupled g.degrees maxCoupling minSize with
  | error err => exact ⟨rfl, fun a h => absurd h (by simp [Except.map])⟩
  | ok chosen =>
    cases chosen with
    | none => exact ⟨rfl, fun a h => absurd h (by simp [Except.map])⟩
    | some ls =>
      refine ⟨rfl, fun a h hjoins => ?_⟩
      have ha : g.touched ls = a := Option.some.inj (Except.ok.inj h)
      subst ha
      exact congrArg (fun s => Except.ok (some s)) (touched_intersect_labels hjoins)

/-- Two coupled pairs of nodes, one of them with an edge to no node, and an edge between no nodes
at all. -/
def strayEdges : Graph Rat where
  label := "g"
  nodes := [⟨"a", 1⟩, ⟨"b", 1⟩, ⟨"c", 1⟩, ⟨"d", 1⟩]
  edges := [⟨"a", "b", 1, 1 / 4⟩, ⟨"c", "d", 1, 3⟩, ⟨"c", "x", 1, 5⟩, ⟨"x", "y", 1, 5⟩]

/-- A search that answers with something that can be seen has found it. -/
theorem exists_found {ε α β : Type} {x : Except ε (Option α)} {f : α → β} {y : β}
    (h : (x.toOption.getD none).map f = some y) : ∃ a, x = .ok (some a) ∧ f a = y := by
  cases x with
  | error why => cases h
  | ok found =>
    obtain ⟨a, rfl, hy⟩ := Option.map_eq_some_iff.mp h
    exact ⟨a, rfl, hy⟩

/-- The first pair is the anti-blob, with or without the edges that lead to no node. -/
theorem intersect_labels_answers_stray :
    ∃ a, a.nodes.toList = ["a", "b"] ∧ (∀ e ∈ strayEdges.touching a.nodes, strayEdges.Joins e) ∧
      strayEdges.findAntiBlob (1 / 2) 1 = .ok (some a) ∧
      (strayEdges.intersect strayEdges.labels).findAntiBlob (1 / 2) 1 = .ok (some a) := by
  have hseen : ((strayEdges.findAntiBlob (1 / 2) 1).toOption.getD none).map (fun a =>
      (a.nodes.toList, (strayEdges.touching a.nodes).all strayEdges.joins)) =
      some (["a", "b"], true) := by decide +kernel
  obtain ⟨a, ha, hy⟩ := exists_found hseen
  obtain ⟨hlist, hjoins⟩ := Prod.mk.inj hy
  have htouching : ∀ e ∈ strayEdges.touching a.nodes, strayEdges.Joins e :=
    fun e he => joins_iff.mp (List.all_eq_true.mp hjoins e he)
  obtain ⟨-, -, -, hanti⟩ := intersect_labels_answers strayEdges
  exact ⟨a, hlist, htouching, ha, (hanti (1 / 2) 1).2 a ha htouching⟩

/-- Two weakly coupled nodes, one of them with a strong edge to no node. -/
def danglingEdge : Graph Rat where
  label := "g"
  nodes := [⟨"a", 1⟩, ⟨"b", 1⟩]
  edges := [⟨"a", "b", 1, 1 / 4⟩, ⟨"a", "x", 1, 5⟩]

/-- With an edge from the anti-blob to no node its density is not that without this edge. It even
exceeds the coupling that is allowed for each of its nodes. -/
theorem anti_blob_counts_dangling :
    danglingEdge.Distinct ∧ ∃ a b, danglingEdge.findAntiBlob (1 / 2) 1 = .ok (some a) ∧
      (danglingEdge.intersect danglingEdge.labels).findAntiBlob (1 / 2) 1 = .ok (some b) ∧
      a.nodes.toList = ["a", "b"] ∧ a.density = 21 / 8 ∧
      b.nodes.toList = ["a", "b"] ∧ b.density = 1 / 8 := by
  have hwith : ((danglingEdge.findAntiBlob (1 / 2) 1).toOption.getD none).map (fun a =>
      (a.nodes.toList, a.density)) = some (["a", "b"], 21 / 8) := by decide +kernel
  have hwithout : (((danglingEdge.intersect danglingEdge.labels).findAntiBlob (1 / 2)
      1).toOption.getD none).map (fun a => (a.nodes.toList, a.density)) =
        some (["a", "b"], 1 / 8) := by decide +kernel
  obtain ⟨a, ha, hseen⟩ := exists_found hwith
  obtain ⟨b, hb, hseen'⟩ := exists_found hwithout
  obtain ⟨hnodes, hdensity⟩ := Prod.mk.inj hseen
  obtain ⟨hnodes', hdensity'⟩ := Prod.mk.inj hseen'
  have hdistinct : danglingEdge.Distinct := by decide
  exact ⟨hdistinct, a, b, ha, hb, hnodes, hdensity, hnodes', hdensity'⟩

end Graph

end Cochange
