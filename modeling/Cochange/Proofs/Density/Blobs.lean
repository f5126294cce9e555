import Cochange.Proofs.Density.Leftover
import Cochange.Proofs.Graph.Connected

/-!
# What the search finds

The search in a component is a loop: as long as members are left, a dense set of them is looked
for and taken out, until none is dense enough. `Extraction` is this loop without a bound on its
rounds, and every search follows it to its end (`exists_extraction`). It never looks for a set
among no members, and what it finds is disjoint and dense (`Extraction.found`).

For a graph: the blobs are found component by component, they are not empty and disjoint, each
lies in its component, and its density is what its couplings in the graph add up to
(`findBlobs_sound`). Couplings may be of either sign here.
-/

namespace Cochange

/-- The labels of a subgraph as a finite set. -/
def Subgraph.nodeSet {ω : Type} (b : Subgraph ω) : Finset String :=
  b.nodes.toList.toFinset

theorem Subgraph.mem_nodeSet {ω : Type} {b : Subgraph ω} {l : String} :
    l ∈ b.nodeSet ↔ l ∈ b.nodes := by
  rw [nodeSet, List.mem_toFinset, Std.ExtTreeSet.mem_toList]

namespace Graph

/-! ## Dense sets of members -/

/-- A set of members with its density: it is not empty, and no member is coupled with the others
by less than half the density. -/
structure Cohesive (links : List (Link Rat)) (found : List Nat × Rat) : Prop where
  ne_nil : found.1 ≠ []
  density_eq : found.2 = density (coupled links) found.1.toFinset
  degree : ∀ v ∈ found.1, found.2 / 2 ≤ degreeIn (coupled links) found.1.toFinset v

section Members

variable {count : Nat} {links : List (Link Rat)} {members : List Nat}
variable (hlinks : ∀ l ∈ links, l.source ≠ l.target) (hsorted : members.Pairwise (· < ·))
variable (hlt : ∀ m ∈ members, m < count) (hne : members ≠ [])

include hlinks hsorted hlt hne

/-- Every node of the set that is found has half the density of the set as its degree. -/
theorem densestWithin_cohesive : Cohesive links (densestWithin count links members) := by
  obtain ⟨j, hj, hfound, hmax⟩ := densestWithin_spec hlinks hsorted hlt hne
  have hcard := List.toFinset_card_of_nodup (hsorted.imp ne_of_lt)
  have hR := remains_nonempty (W := coupled links) (show j < members.toFinset.card by omega)
  rw [hfound] at hmax ⊢
  have hset : (members.filter fun m => m ∈ remains (coupled links) members.toFinset j).toFinset =
      remains (coupled links) members.toFinset j := by
    ext m
    rw [List.mem_toFinset, List.mem_filter, decide_eq_true_eq]
    exact and_iff_right_of_imp mem_of_mem_remains
  obtain ⟨w, hw⟩ := exists_weakest (W := coupled links) hR
  -- without its weakest node the set is the next one on the way, and that is no denser
  have hleast : density (coupled links) (remains (coupled links) members.toFinset j) / 2 ≤
      degreeIn (coupled links) (remains (coupled links) members.toFinset j) w := by
    refine half_density_le_of_erase (coupled_mutual hlinks) (weakest?_eq_some.mp hw).1 fun he => ?_
    rw [← remains_succ hw] at he ⊢
    have hpos := he.card_pos
    rw [card_remains, hcard] at hpos
    exact hmax (j + 1) (by omega)
  refine ⟨?_, ?_, fun v hv => ?_⟩
  · rw [← List.toFinset_nonempty_iff]
    exact hset.symm ▸ hR
  · exact (congrArg (density (coupled links)) hset).symm
  · rw [hset]
    exact hleast.trans (degreeIn_weakest_le hw (of_decide_eq_true (List.mem_filter.mp hv).2))

/-- Only members are found. -/
theorem densestWithin_subset : ∀ v ∈ (densestWithin count links members).1, v ∈ members := by
  obtain ⟨j, -, hfound, -⟩ := densestWithin_spec hlinks hsorted hlt hne
  rw [hfound]
  exact fun v hv => List.mem_of_mem_filter hv

end Members

/-! ## The loop -/

/-- The search among some members: the sets of members it looked for a dense set in, one after the
other, and the dense sets it took out. -/
inductive Extraction (count : Nat) (links : List (Link Rat)) (minDensity : Rat) :
    (members : List Nat) → (searched : List (List Nat)) → (found : List (List Nat × Rat)) → Prop
  | nothing_left : Extraction count links minDensity [] [] []
  | too_sparse {members : List Nat} (hne : members ≠ [])
      (hd : (densestWithin count links members).2 < minDensity) :
      Extraction count links minDensity members [members] []
  | taken {members : List Nat} {searched : List (List Nat)} {found : List (List Nat × Rat)}
      (hne : members ≠ []) (hd : minDensity ≤ (densestWithin count links members).2)
      (rest : Extraction count links minDensity
        (members.filter fun m => m ∉ (densestWithin count links members).1) searched found) :
      Extraction count links minDensity members (members :: searched)
        (densestWithin count links members :: found)

section Loop

variable {count : Nat} {links : List (Link Rat)} {minDensity : Rat}

/-- No round looks for a set among no members. -/
theorem Extraction.searched_ne_nil {members : List Nat} {searched : List (List Nat)}
    {found : List (List Nat × Rat)}
    (h : Extraction count links minDensity members searched found) :
    ∀ ms ∈ searched, ms ≠ [] := by
  induction h with
  | nothing_left => exact fun ms hms => absurd hms List.not_mem_nil
  | too_sparse hne _ => exact fun ms hms => List.mem_singleton.mp hms ▸ hne
  | taken hne _ _ ih =>
    intro ms hms
    rcases List.mem_cons.mp hms with rfl | hms
    · exact hne
    · exact ih ms hms

variable (hlinks : ∀ l ∈ links, l.source ≠ l.target)
include hlinks

/-- The search follows the loop to its end: there are no more rounds than members. -/
theorem exists_extraction (minDensity : Rat) {fuel : Nat} : ∀ {members : List Nat},
    members.Pairwise (· < ·) → (∀ m ∈ members, m < count) → members.length ≤ fuel →
    ∃ searched, Extraction count links minDensity members searched
      (extract count links minDensity fuel members) := by
  induction fuel with
  | zero =>
    intro members _ _ hlen
    rw [List.length_eq_zero_iff.mp (Nat.le_zero.mp hlen)]
    exact ⟨[], .nothing_left⟩
  | succ fuel ih =>
    intro members hsorted hlt hlen
    rw [extract]
    by_cases hne : members = []
    · rw [if_pos (List.isEmpty_iff.mpr hne), hne]
      exact ⟨[], .nothing_left⟩
    · rw [if_neg (by rw [List.isEmpty_iff]; exact hne)]
      dsimp only
      by_cases hd : (densestWithin count links members).2 < minDensity
      · rw [if_pos (Weight.rat_lt.mpr hd)]
        exact ⟨[members], .too_sparse hne hd⟩
      · rw [if_neg fun hc => hd (Weight.rat_lt.mp hc)]
        have hless := length_without_found hlinks hsorted hlt hne
        obtain ⟨searched, hs⟩ := ih (hsorted.filter _)
          (fun m hm => hlt m (List.mem_of_mem_filter hm)) (Nat.le_of_lt_succ (hless.trans_le hlen))
        exact ⟨members :: searched, .taken hne (not_lt.mp hd) hs⟩

/-- What is found are sets of the members that are dense enough, and no two of them meet. -/
theorem Extraction.found {members : List Nat} {searched : List (List Nat)}
    {found : List (List Nat × Rat)}
    (h : Extraction count links minDensity members searched found)
    (hsorted : members.Pairwise (· < ·)) (hlt : ∀ m ∈ members, m < count) :
    (∀ f ∈ found, Cohesive links f ∧ minDensity ≤ f.2 ∧ ∀ v ∈ f.1, v ∈ members) ∧
      found.Pairwise fun f f' => ∀ v ∈ f.1, v ∉ f'.1 := by
  induction h with
  | nothing_left => exact ⟨fun f hf => absurd hf List.not_mem_nil, .nil⟩
  | too_sparse _ _ => exact ⟨fun f hf => absurd hf List.not_mem_nil, .nil⟩
  | taken hne hd _ ih =>
    obtain ⟨hall, hdisjoint⟩ := ih (hsorted.filter _) fun m hm =>
      hlt m (List.mem_of_mem_filter hm)
    refine ⟨fun f hf => ?_, .cons (fun f hf v hv hv' => ?_) hdisjoint⟩
    · rcases List.mem_cons.mp hf with rfl | hf
      · exact ⟨densestWithin_cohesive hlinks hsorted hlt hne, hd,
          densestWithin_subset hlinks hsorted hlt hne⟩
      · obtain ⟨hc, hd', hsub⟩ := hall f hf
        exact ⟨hc, hd', fun v hv => List.mem_of_mem_filter (hsub v hv)⟩
    -- what is found later is looked for among what was left
    · have hleft := (List.mem_filter.mp ((hall f hf).2.2 v hv')).2
      exact of_decide_eq_true hleft hv

end Loop

/-! ## Blobs -/

variable {g : Graph Rat} {minDensity : Rat}

/-- The subgraph for a set of numbers that was found. -/
def blobOf (g : Graph Rat) (found : List Nat × Rat) : Subgraph Rat where
  nodes := Std.ExtTreeSet.ofList (found.1.filterMap fun m => g.labels.toList.toArray[m]?)
  density := found.2

/-- The search of a component: the loop over the numbers of its labels, and the blobs that it
gives. -/
def Searched (g : Graph Rat) (minDensity : Rat) (c : LabelSet) (blobs : List (Subgraph Rat)) :
    Prop :=
  ∃ searched found,
    Extraction g.labels.toList.toArray.size (g.links g.numbers) minDensity
      (membersOf g.numbers c) searched found ∧
    (∀ ms ∈ searched, ms ≠ []) ∧ blobs = found.map g.blobOf

/-- The labels of a blob are those with the numbers that were found. -/
theorem mem_blobOf {found : List Nat × Rat} {l : String} :
    l ∈ (g.blobOf found).nodes ↔ ∃ m ∈ found.1, g.numbers[l]? = some m := by
  rw [blobOf, mem_ofList_iff, List.mem_filterMap]
  simp only [List.getElem?_toArray, numbers_eq_some]

/-- A blob is a dense set of labels of one component. -/
structure IsBlob (g : Graph Rat) (minDensity : Rat) (c : LabelSet) (b : Subgraph Rat) : Prop where
  nonempty : b.nodeSet.Nonempty
  mem : ∀ l ∈ b.nodes, l ∈ c
  density_eq : b.density = density g.joined b.nodeSet
  dense : minDensity ≤ b.density
  degree : ∀ l ∈ b.nodes, b.density / 2 ≤ degreeIn g.joined b.nodeSet l

/-- What the search finds among the members of a component, and what is dense enough, is a blob of
it. -/
theorem isBlob_blobOf {c : LabelSet} {found : List Nat × Rat}
    (hfound : Cohesive (g.links g.numbers) found) (hd : minDensity ≤ found.2)
    (hmem : ∀ m ∈ found.1, m ∈ membersOf g.numbers c) : g.IsBlob minDensity c (g.blobOf found) := by
  have hlabels : ∀ l ∈ (g.blobOf found).nodeSet, l ∈ g.labels := by
    intro l hl
    obtain ⟨m, -, hm⟩ := mem_blobOf.mp (Subgraph.mem_nodeSet.mp hl)
    exact exists_number_iff.mp ⟨m, hm⟩
  -- the numbers of the blob's labels are the ones that were found
  have himage : (g.blobOf found).nodeSet.image g.number = found.1.toFinset := by
    ext m
    rw [Finset.mem_image, List.mem_toFinset]
    constructor
    · rintro ⟨l, hl, rfl⟩
      obtain ⟨m, hm, hlm⟩ := mem_blobOf.mp (Subgraph.mem_nodeSet.mp hl)
      rw [numbers_eq_number (hlabels l hl), Option.some.injEq] at hlm
      exact hlm ▸ hm
    · intro hm
      obtain ⟨l, -, hl⟩ := mem_membersOf.mp (hmem m hm)
      refine ⟨l, Subgraph.mem_nodeSet.mpr (mem_blobOf.mpr ⟨m, hm, hl⟩), ?_⟩
      rw [number, hl]
      rfl
  refine ⟨?_, fun l hl => ?_, ?_, hd, fun l hl => ?_⟩
  · rw [← Finset.image_nonempty (f := g.number), himage]
    exact (List.toFinset_nonempty_iff _).mpr hfound.ne_nil
  · obtain ⟨m, hm, hlm⟩ := mem_blobOf.mp hl
    obtain ⟨l', hl', hlm'⟩ := mem_membersOf.mp (hmem m hm)
    exact number_inj hlm' hlm ▸ hl'
  · rw [← density_numbers hlabels, himage]
    exact hfound.density_eq
  · have hl' := Subgraph.mem_nodeSet.mpr hl
    obtain ⟨m, hm, hlm⟩ := mem_blobOf.mp hl
    rw [numbers_eq_number (hlabels l hl'), Option.some.injEq] at hlm
    rw [← degreeIn_numbers hlabels hl', himage, hlm]
    exact hfound.degree m hm

/-- The blobs of a component: how the search went, and what they are. -/
theorem blobsWithin_spec (g : Graph Rat) (minDensity : Rat) (c : LabelSet) :
    let blobs := blobsWithin g.labels.toList.toArray g.numbers (g.links g.numbers) minDensity c
    g.Searched minDensity c blobs ∧ (∀ b ∈ blobs, g.IsBlob minDensity c b) ∧
      blobs.Pairwise fun a b => ∀ l ∈ a.nodes, l ∉ b.nodes := by
  have hlt := fun m (hm : m ∈ membersOf g.numbers c) => lt_of_mem_membersOf hm
  obtain ⟨searched, hs⟩ := exists_extraction (g.links_ne g.numbers) minDensity
    (g.membersOf_sorted c) hlt (Nat.le_refl _)
  obtain ⟨hall, hdisjoint⟩ := hs.found (g.links_ne g.numbers) (g.membersOf_sorted c) hlt
  refine ⟨⟨searched, _, hs, hs.searched_ne_nil, rfl⟩, fun b hb => ?_, ?_⟩
  · obtain ⟨f, hf, rfl⟩ := List.mem_map.mp hb
    obtain ⟨hc, hd, hmem⟩ := hall f hf
    exact isBlob_blobOf hc hd hmem
  · refine List.pairwise_map.mpr (hdisjoint.imp fun {f f'} hff l hl hl' => ?_)
    obtain ⟨m, hm, hlm⟩ := mem_blobOf.mp hl
    obtain ⟨m', hm', hlm'⟩ := mem_blobOf.mp hl'
    rw [hlm, Option.some.injEq] at hlm'
    exact hff m hm (hlm' ▸ hm')

/-- The search of a graph ends, and what it gives are blobs of its components. -/
theorem exists_findBlobs (hsize : g.nodes.length ≤ maxSearchedNodes) (hd : 0 ≤ minDensity) :
    ∃ blobs, g.findBlobs minDensity = .ok blobs ∧
      ∀ b ∈ blobs, ∃ c ∈ g.components, g.IsBlob minDensity c b := by
  refine ⟨_, findBlobs_eq hd hsize, fun b hb => ?_⟩
  obtain ⟨c, hc, hb⟩ := List.mem_flatMap.mp hb
  exact ⟨c, hc, (g.blobsWithin_spec minDensity c).2.1 b hb⟩

/-- The blobs of a graph are found component by component, in the order of the components, by a
search that ends and never looks for a set among no members. They are not empty, no two of them
meet, each lies in its component, which holds all labels connected to any one of its own; and the
density of each is twice the coupling of the edges inside it, divided by its size, and at least
the one asked for. -/
theorem findBlobs_sound (g : Graph Rat) (minDensity : Rat) (hg : g.Distinct)
    (hsize : g.nodes.length ≤ maxSearchedNodes) (hd : 0 ≤ minDensity) :
    ∃ found : List (List (Subgraph Rat)),
      g.findBlobs minDensity = .ok found.flatten ∧
      List.Forall₂ (fun c blobs => g.Searched minDensity c blobs ∧
        ∀ b ∈ blobs, ∀ l ∈ b.nodes, l ∈ c) g.components found ∧
      (∀ c ∈ g.components, ∀ u ∈ c, ∀ v, v ∈ c ↔ v ∈ g.labels ∧ g.Connected u v) ∧
      (found.flatten.Pairwise fun a b => ∀ l ∈ a.nodes, l ∉ b.nodes) ∧
      ∀ b ∈ found.flatten, b.nodeSet.Nonempty ∧
        b.density = 2 * g.inside b.nodeSet / b.size ∧ minDensity ≤ b.density := by
  have hspec := g.blobsWithin_spec minDensity
  refine ⟨g.components.map
    (blobsWithin g.labels.toList.toArray g.numbers (g.links g.numbers) minDensity),
    findBlobs_eq hd hsize, ?_, fun c hc u hu v => mem_component_iff hg hc hu, ?_, fun b hb => ?_⟩
  · rw [List.forall₂_map_right_iff, List.forall₂_same]
    exact fun c _ => ⟨(hspec c).1, fun b hb => ((hspec c).2.1 b hb).mem⟩
  · rw [List.pairwise_flatten]
    constructor
    · intro blobs hblobs
      obtain ⟨c, -, rfl⟩ := List.mem_map.mp hblobs
      exact (hspec c).2.2
    -- blobs of different components hold labels of these
    · refine List.pairwise_map.mpr ((components_disjoint hg).imp ?_)
      intro c c' hcc a ha b hb l hl hl'
      exact hcc l (((hspec c).2.1 a ha).mem l hl) (((hspec c').2.1 b hb).mem l hl')
  · obtain ⟨blobs, hblobs, hb⟩ := List.mem_flatten.mp hb
    obtain ⟨c, -, rfl⟩ := List.mem_map.mp hblobs
    have hblob := (hspec c).2.1 b hb
    refine ⟨hblob.nonempty, ?_, hblob.dense⟩
    rw [hblob.density_eq, density, degreeSum_joined, Subgraph.nodeSet, card_toFinset_toList]
    rfl

/-- The triangle is found, and then the pair that it hangs on, in spite of the link between them. -/
theorem findBlobs_sound_triangle :
    ∃ found : List (List (Subgraph Rat)),
      triangleGraph.findBlobs (1 / 2) = .ok found.flatten ∧
      found.flatten.map (fun b => (b.nodes.toList, b.density)) =
        [(["a", "b", "c"], 2), (["d", "e"], 1 / 2)] ∧
      found.flatten.Pairwise fun a b => ∀ l ∈ a.nodes, l ∉ b.nodes := by
  have hdistinct : triangleGraph.Distinct := by decide
  obtain ⟨found, hok, -, -, hdisjoint, -⟩ := findBlobs_sound triangleGraph (1 / 2) hdistinct
    (by decide) (by decide +kernel)
  have hfound : ((triangleGraph.findBlobs (1 / 2)).toOption.getD []).map
      (fun b => (b.nodes.toList, b.density)) = [(["a", "b", "c"], 2), (["d", "e"], 1 / 2)] := by
    decide +kernel
  rw [hok] at hfound
  exact ⟨found, hok, hfound, hdisjoint⟩

end Graph

end Cochange
