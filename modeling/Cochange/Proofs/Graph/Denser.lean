import Cochange.Proofs.Contexts.Doubles
import Cochange.Proofs.Density.Exact
import Cochange.Proofs.Graph.Local

/-!
# Denser blobs

How dense a blob has to be does not decide which set of a component is found next, only where the
search of the component ends. So with a higher least density the search finds the same sets one
after the other and ends earlier (`isPrefix_extract`), and the search of the next component starts as
it did. Of the blobs of a graph only some are dropped (`findBlobs_denser`).

What this takes of the weights is that their comparisons belong to one order (`Weight.Ordered`). So
it holds for doubles as well, also when a density is no number.
-/

namespace Cochange

/-- Weights are compared by one order. What is no number need not be in it. -/
class Weight.Ordered (ω : Type) [Weight ω] : Prop where
  le_trans : ∀ {x y z : ω}, Weight.le x y = true → Weight.le y z = true → Weight.le x z = true
  lt_of_lt_of_le : ∀ {x y z : ω}, Weight.lt x y = true → Weight.le y z = true →
    Weight.lt x z = true

instance ordered_rat : Weight.Ordered Rat where
  le_trans hxy hyz := decide_eq_true ((of_decide_eq_true hxy).trans (of_decide_eq_true hyz))
  lt_of_lt_of_le hxy hyz :=
    decide_eq_true (lt_of_lt_of_le (of_decide_eq_true hxy) (of_decide_eq_true hyz))

instance ordered_float : Weight.Ordered Float where
  le_trans hxy hyz :=
    decide_eq_true (Doubles.le_trans (of_decide_eq_true hxy) (of_decide_eq_true hyz))
  lt_of_lt_of_le hxy hyz :=
    decide_eq_true (Doubles.lt_of_lt_of_le (of_decide_eq_true hxy) (of_decide_eq_true hyz))

namespace Graph

variable {ω : Type} [Weight ω]

/-- The blobs that are found in one component. -/
def blobsIn (g : Graph ω) (minDensity : ω) (c : LabelSet) : List (Subgraph ω) :=
  blobsWithin g.labels.toList.toArray g.numbers (g.links g.numbers) minDensity c

/-- The blobs of a graph that lie in a component are those that are found in it. -/
theorem filter_blobsIn {g : Graph ω} (hg : g.Distinct) (minDensity : ω) {c : LabelSet}
    (hc : c ∈ g.components) :
    (g.components.flatMap (g.blobsIn minDensity)).filter (·.liesIn c) = g.blobsIn minDensity c := by
  have hamong : ∀ c ∈ g.components, g.blobsIn minDensity c = blobsAmong g.edges minDensity c :=
    fun c hc => blobsWithin_eq fun l hl => mem_labels_of_mem_component hg hc hl
  rw [List.flatMap_congr hamong, filter_liesIn hg hc, hamong c hc]

variable [Weight.Ordered ω] {d d' : ω}

/-- What has to be denser ends the search earlier, and changes nothing before. -/
theorem isPrefix_extract (hle : Weight.le d d' = true) (count : Nat) (links : List (Link ω))
    {fuel : Nat} : ∀ {members : List Nat},
      extract count links d' fuel members <+: extract count links d fuel members := by
  induction fuel with
  | zero => exact List.prefix_refl _
  | succ fuel ih =>
    intro members
    rw [extract, extract]
    split
    next => exact List.prefix_refl _
    next =>
      dsimp only
      by_cases hlow : Weight.lt (densestWithin count links members).2 d = true
      · rw [if_pos hlow, if_pos (Weight.Ordered.lt_of_lt_of_le hlow hle)]
      · rw [if_neg hlow]
        split
        next => exact List.nil_prefix
        next => exact (List.prefix_cons_inj _).mpr ih

/-- With a higher density a component has the first of its blobs. -/
theorem isPrefix_blobsIn (hle : Weight.le d d' = true) (g : Graph ω) (c : LabelSet) :
    g.blobsIn d' c <+: g.blobsIn d c :=
  (isPrefix_extract hle _ _).map _

/-- With a higher least density the search drops some of the blobs and finds all others as before,
with the same nodes and densities. In each component it finds the first of them. A graph that is too
large keeps them all. -/
theorem findBlobs_denser (g : Graph ω) (hd : Weight.isNonnegative d = true)
    (hle : Weight.le d d' = true) :
    ∃ blobs blobs', g.findBlobs d = .ok blobs ∧ g.findBlobs d' = .ok blobs' ∧
      blobs'.Sublist blobs ∧
      (g.nodes.length ≤ maxSearchedNodes →
        blobs = g.components.flatMap (g.blobsIn d) ∧
        blobs' = g.components.flatMap (g.blobsIn d') ∧
        ∀ c ∈ g.components, g.blobsIn d' c <+: g.blobsIn d c) ∧
      (maxSearchedNodes < g.nodes.length → blobs' = blobs) ∧
      (g.Distinct → ∀ c ∈ g.components,
        blobs'.filter (·.liesIn c) <+: blobs.filter (·.liesIn c)) := by
  have hd' : Weight.isNonnegative d' = true := Weight.Ordered.le_trans hd hle
  rcases Nat.lt_or_ge maxSearchedNodes g.nodes.length with hlarge | hsmall
  · refine ⟨_, _, findBlobs_of_large hd hlarge, findBlobs_of_large hd' hlarge, List.Sublist.refl _,
      fun hsmall => ?_, fun _ => rfl, fun _ _ _ => List.prefix_refl _⟩
    exact absurd hlarge (Nat.not_lt.mpr hsmall)
  · refine ⟨_, _, findBlobs_components hd hsmall, findBlobs_components hd' hsmall, ?_,
      fun _ => ⟨rfl, rfl, fun c _ => isPrefix_blobsIn hle g c⟩, fun hlarge => ?_, fun hg c hc => ?_⟩
    · exact List.Sublist.flatMap_right _ fun c _ => (isPrefix_blobsIn hle g c).sublist
    · exact absurd hlarge (Nat.not_lt.mpr hsmall)
    · show (g.components.flatMap (g.blobsIn d')).filter (·.liesIn c) <+:
        (g.components.flatMap (g.blobsIn d)).filter (·.liesIn c)
      rw [filter_blobsIn hg d hc, filter_blobsIn hg d' hc]
      exact isPrefix_blobsIn hle g c

/-- Two triangles, the first of them with a pair attached that is coupled more weakly than both. -/
def gradedGraph : Graph Float where
  label := "g"
  nodes := ["a", "b", "c", "d", "e", "x", "y", "z"].map fun l => ⟨l, 4⟩
  edges :=
    [⟨"a", "b", 3, 1.0⟩, ⟨"a", "c", 3, 1.0⟩, ⟨"b", "c", 3, 1.0⟩, ⟨"c", "d", 1, 0.125⟩,
      ⟨"d", "e", 3, 1.0⟩, ⟨"x", "y", 2, 0.75⟩, ⟨"x", "z", 2, 0.75⟩, ⟨"y", "z", 2, 0.75⟩]

/-- The first five nodes are connected, and so are the other three. -/
theorem gradedGraph_components :
    gradedGraph.components =
      [Std.ExtTreeSet.ofList ["a", "b", "c", "d", "e"], Std.ExtTreeSet.ofList ["x", "y", "z"]] :=
  components_eq_of_classes [("a", ["b", "c", "d", "e"]), ("x", ["y", "z"])] (by decide +kernel)
    (by decide)

/-- The pair is dropped, and the second triangle is found all the same. -/
theorem findBlobs_denser_graded :
    ∃ blobs blobs', gradedGraph.findBlobs 1.0 = .ok blobs ∧
      gradedGraph.findBlobs 1.5 = .ok blobs' ∧ blobs'.Sublist blobs ∧
      blobs.map (fun b => (b.nodes.toList, b.density)) =
        [(["a", "b", "c"], 2.0), (["d", "e"], 1.0), (["x", "y", "z"], 1.5)] ∧
      blobs'.map (fun b => (b.nodes.toList, b.density)) =
        [(["a", "b", "c"], 2.0), (["x", "y", "z"], 1.5)] := by
  have hle : Weight.le (1.0 : Float) 1.5 = true := by decide +kernel
  obtain ⟨blobs, blobs', hfound, hfound', hsub, hparts, -⟩ :=
    gradedGraph.findBlobs_denser (by decide +kernel) hle
  obtain ⟨hblobs, hblobs', -⟩ := hparts (by decide)
  rw [gradedGraph_components] at hblobs hblobs'
  refine ⟨blobs, blobs', hfound, hfound', hsub, ?_, ?_⟩
  · rw [hblobs]
    decide +kernel
  · rw [hblobs']
    decide +kernel

end Graph

end Cochange
