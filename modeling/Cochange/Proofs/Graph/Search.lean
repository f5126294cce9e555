import Cochange.Proofs.Density.Links
import Cochange.Proofs.Graph.Induced

/-!
# The search among labels

The labels of a graph are numbered for the search, and the members of each set that is searched
are numbered anew. The first numbers leave no trace: what is found are the labels that would be
found if the labels of the set themselves were numbered in their order (`extract_numbersOf`,
`blobsWithin_eq`). So the search in a component depends on nothing but its labels and the edges
between them (`searchAmong_filter`).

Whatever is found has a label, as some member is left when the peeling ends
(`ne_nil_of_mem_searchAmong`).
-/

namespace Cochange

namespace Graph

variable {ω : Type}

/-! ## Numbers of a list of labels -/

/-- The numbers that the labels of a list have among others. -/
def numbersOf (numbers : Std.ExtTreeMap String Nat) (ls : List String) : List Nat :=
  ls.filterMap fun l => numbers[l]?

/-- The labels of a list, numbered by their places in it. -/
def numbering (ls : List String) : Std.ExtTreeMap String Nat :=
  Std.ExtTreeMap.ofList ls.zipIdx

section Numbers

variable {g : Graph ω} {ls : List String}

/-- Different labels have different numbers. -/
theorem nodup_numbersOf (hnodup : ls.Nodup) : (numbersOf g.numbers ls).Nodup := by
  refine hnodup.filterMap fun l l' i hi hi' => ?_
  exact number_inj (Option.mem_def.mp hi) (Option.mem_def.mp hi')

theorem lt_of_mem_numbersOf {u : Nat} (hu : u ∈ numbersOf g.numbers ls) :
    u < g.labels.toList.toArray.size := by
  obtain ⟨l, -, hl⟩ := List.mem_filterMap.mp hu
  rw [List.size_toArray]
  exact (List.getElem?_eq_some_iff.mp (numbers_eq_some.mp hl)).1

variable (hls : ∀ l ∈ ls, l ∈ g.labels)

include hls

/-- Each label of a list of labels has a number, so the numbers stand where the labels do. -/
theorem numbersOf_eq_map : numbersOf g.numbers ls = ls.map fun l => (g.numbers[l]?).getD 0 := by
  rw [numbersOf, ← List.filterMap_eq_map']
  refine List.filterMap_congr fun l hl => ?_
  obtain ⟨i, hi⟩ := exists_number_iff.mpr (hls l hl)
  rw [hi]
  rfl

theorem length_numbersOf : (numbersOf g.numbers ls).length = ls.length := by
  rw [numbersOf_eq_map hls, List.length_map]

/-- Numbers stand in the order of their labels. -/
theorem getElem?_numbersOf {i u : Nat} :
    (numbersOf g.numbers ls)[i]? = some u ↔ ∃ l, ls[i]? = some l ∧ g.numbers[l]? = some u := by
  rw [numbersOf_eq_map hls, List.getElem?_map, Option.map_eq_some_iff]
  refine exists_congr fun l => and_congr_right fun hl => ?_
  obtain ⟨j, hj⟩ := exists_number_iff.mpr (hls l (List.mem_of_getElem? hl))
  rw [hj, Option.some.injEq]
  rfl

/-- The labels of some numbers are those that were numbered. -/
theorem filterMap_numbersOf :
    (numbersOf g.numbers ls).filterMap (fun u => g.labels.toList.toArray[u]?) = ls := by
  rw [numbersOf, List.filterMap_filterMap]
  have hback : ∀ l ∈ ls,
      (g.numbers[l]?.bind fun u => g.labels.toList.toArray[u]?) = some l := by
    intro l hl
    obtain ⟨i, hi⟩ := exists_number_iff.mpr (hls l hl)
    rw [hi, Option.bind_some, List.getElem?_toArray]
    exact numbers_eq_some.mp hi
  rw [List.filterMap_congr hback, List.filterMap_some]

/-- Without the numbers of some of the labels, what is left are the numbers of the others. -/
theorem filter_numbersOf (found : List String) :
    ((numbersOf g.numbers ls).filter fun u => u ∉ numbersOf g.numbers found) =
      numbersOf g.numbers (ls.filter fun l => l ∉ found) := by
  unfold numbersOf
  rw [List.filter_filterMap, List.filterMap_filter]
  refine List.filterMap_congr fun l hl => ?_
  obtain ⟨i, hi⟩ := exists_number_iff.mpr (hls l hl)
  have hmem : i ∈ found.filterMap (fun l => g.numbers[l]?) ↔ l ∈ found := by
    rw [List.mem_filterMap]
    constructor
    · intro ⟨l', hl', hi'⟩
      exact number_inj hi hi' ▸ hl'
    · intro hl
      exact ⟨l, hl, hi⟩
  rw [hi]
  simp only [Option.filter_some, hmem]

/-- The place of a label's number among the numbers of a list is the place of the label. -/
theorem bind_places (hnodup : ls.Nodup) (l : String) :
    (g.numbers[l]?.bind fun u =>
      (places g.labels.toList.toArray.size (numbersOf g.numbers ls))[u]?.join) =
        (numbering ls)[l]? := by
  refine Option.ext fun i => ?_
  rw [Option.bind_eq_some_iff, numbering, ofList_zipIdx_eq_some hnodup]
  simp only [places_eq_some (nodup_numbersOf hnodup) (fun m => lt_of_mem_numbersOf),
    getElem?_numbersOf hls]
  constructor
  · intro ⟨u, hu, l', hl', hu'⟩
    exact number_inj hu hu' ▸ hl'
  · intro hl
    obtain ⟨u, hu⟩ := exists_number_iff.mpr (hls l (List.mem_of_getElem? hl))
    exact ⟨u, hu, l, hl, hu⟩

end Numbers

/-! ## Links among labels -/

section Links

variable {g : Graph ω} {ls : List String}

/-- A link that is numbered anew is the link by the new numbers, if no two old ones become one. -/
theorem linkOf?_renumber? {numbers numbers' : Std.ExtTreeMap String Nat} {place : Nat → Option Nat}
    (hnew : ∀ l : String, numbers[l]?.bind place = numbers'[l]?)
    (hinj : ∀ a b i, place a = some i → place b = some i → a = b) (e : Edge ω) :
    (linkOf? numbers e).bind (·.renumber? place) = linkOf? numbers' e := by
  unfold linkOf?
  rw [← hnew, ← hnew]
  cases numbers[e.source]? with
  | none => rfl
  | some a =>
    cases numbers[e.target]? with
    | none =>
      dsimp only [Option.bind_some, Option.bind_none]
      cases place a with
      | none => rfl
      | some i => rfl
    | some b =>
      dsimp only [Option.bind_some]
      by_cases hab : a = b
      · rw [if_pos hab, hab]
        cases place b with
        | none => rfl
        | some j => exact (if_pos rfl).symm
      · rw [if_neg hab, Option.bind_some, Link.renumber?]
        cases hi : place a with
        | none => rfl
        | some i =>
          cases hj : place b with
          | none => rfl
          | some j =>
            have hij : i ≠ j := fun he => hab (hinj a b i hi (he ▸ hj))
            exact (if_neg hij).symm

/-- The links among some members are those that their labels have by their places. -/
theorem linksWithin_numbersOf (hls : ∀ l ∈ ls, l ∈ g.labels) (hnodup : ls.Nodup) :
    linksWithin g.labels.toList.toArray.size (numbersOf g.numbers ls) (g.links g.numbers) =
      g.links (numbering ls) := by
  unfold linksWithin links
  dsimp only
  rw [List.filterMap_filterMap]
  refine List.filterMap_congr fun e _ => linkOf?_renumber? (bind_places hls hnodup) ?_ e
  intro a b i ha hb
  rw [places_eq_some (nodup_numbersOf hnodup) fun m => lt_of_mem_numbersOf] at ha hb
  rw [ha] at hb
  exact Option.some.inj hb

/-- An edge gives a link among some labels only if both ends are among them. -/
theorem linkOf?_numbering_eq_none (hnodup : ls.Nodup) {e : Edge ω}
    (h : ¬(e.source ∈ ls ∧ e.target ∈ ls)) : linkOf? (numbering ls) e = none := by
  unfold linkOf?
  split
  next a b hs ht =>
    rw [numbering, ofList_zipIdx_eq_some hnodup] at hs ht
    exact absurd ⟨List.mem_of_getElem? hs, List.mem_of_getElem? ht⟩ h
  next => rfl

/-- Edges that do not join two of some labels give no links among these. -/
theorem filterMap_linkOf?_filter (hnodup : ls.Nodup) (edges : List (Edge ω)) {p : Edge ω → Bool}
    (hp : ∀ e ∈ edges, e.source ∈ ls → e.target ∈ ls → p e = true) :
    (edges.filter p).filterMap (linkOf? (numbering ls)) =
      edges.filterMap (linkOf? (numbering ls)) := by
  refine filterMap_filter_of_none fun e he hout => ?_
  exact linkOf?_numbering_eq_none hnodup fun hin => hout (hp e he hin.1 hin.2)

end Links

/-! ## What is not dropped -/

/-- The items of a list without those at some places. -/
def undropped {α : Type} (dropped : List Nat) (as : List α) : List α :=
  as.zipIdx.filterMap fun a => if a.2 ∈ dropped then none else some a.1

section Undropped

variable {α β : Type} {dropped : List Nat} {as : List α}

/-- What is left over was not dropped. -/
theorem mem_undropped {a : α} :
    a ∈ undropped dropped as ↔ ∃ i, as[i]? = some a ∧ i ∉ dropped := by
  unfold undropped
  rw [List.mem_filterMap]
  constructor
  · intro ⟨⟨b, i⟩, hb, hsome⟩
    obtain ⟨hi, hba⟩ := Option.ite_none_left_eq_some.mp hsome
    rw [← Option.some.inj hba]
    exact ⟨i, List.mem_zipIdx_iff_getElem?.mp hb, hi⟩
  · intro ⟨i, ha, hi⟩
    exact ⟨(a, i), List.mem_zipIdx_iff_getElem?.mpr ha, if_neg hi⟩

/-- What is left over can be renamed before or after. -/
theorem undropped_map (f : α → β) :
    undropped dropped (as.map f) = (undropped dropped as).map f := by
  unfold undropped
  rw [List.zipIdx_map, List.filterMap_map, List.map_filterMap]
  refine List.filterMap_congr fun a _ => ?_
  show (if a.2 ∈ dropped then none else some (f a.1)) = _
  split
  next => rfl
  next => rfl

/-- Fewer places than there are items do not hold all of them. -/
theorem undropped_ne_nil (h : dropped.length < as.length) : undropped dropped as ≠ [] := by
  intro hnil
  have hall : ∀ i ∈ List.range as.length, i ∈ dropped := by
    intro i hi
    by_contra hout
    have ha := List.getElem?_eq_getElem (List.mem_range.mp hi)
    have hmem := mem_undropped.mpr ⟨i, ha, hout⟩
    rw [hnil] at hmem
    exact absurd hmem List.not_mem_nil
  have hle := (List.subperm_of_subset List.nodup_range hall).length_le
  rw [List.length_range] at hle
  omega

end Undropped

/-! ## Searching labels -/

variable [Weight ω]

/-- The densest set found by peeling among some labels, numbered by their places, and its
density. -/
def densestAmong (edges : List (Edge ω)) (ls : List String) : List String × ω :=
  let (density, dropped) :=
    Peel.densest (.ofLinks ls.length (edges.filterMap (linkOf? (numbering ls))))
  (undropped dropped ls, density)

/-- The sets of labels that are dense enough, each searched in what the earlier ones leave. At most
`fuel` are taken. -/
def searchAmong (edges : List (Edge ω)) (minDensity : ω) :
    (fuel : Nat) → List String → List (List String × ω)
  | 0, _ => []
  | fuel + 1, ls =>
    if ls.isEmpty then []
    else
      let found := densestAmong edges ls
      if Weight.lt found.2 minDensity then []
      else found :: searchAmong edges minDensity fuel (ls.filter fun l => l ∉ found.1)

section Search

variable {g : Graph ω} {ls : List String}

/-- The densest part is found among the labels. -/
theorem mem_of_mem_densestAmong {edges : List (Edge ω)} {l : String}
    (hl : l ∈ (densestAmong edges ls).1) : l ∈ ls := by
  obtain ⟨i, hi, -⟩ := mem_undropped.mp hl
  exact List.mem_of_getElem? hi

/-- What is found among the numbers of some labels are the numbers of what is found among these. -/
theorem densestWithin_numbersOf (hls : ∀ l ∈ ls, l ∈ g.labels) (hnodup : ls.Nodup) :
    densestWithin g.labels.toList.toArray.size (g.links g.numbers) (numbersOf g.numbers ls) =
      (numbersOf g.numbers (densestAmong g.edges ls).1, (densestAmong g.edges ls).2) := by
  have hfound : ∀ l ∈ (densestAmong g.edges ls).1, l ∈ g.labels :=
    fun l hl => hls l (mem_of_mem_densestAmong hl)
  rw [numbersOf_eq_map hfound]
  unfold densestWithin densestAmong
  dsimp only
  rw [length_numbersOf hls, linksWithin_numbersOf hls hnodup, ← undropped_map,
    ← numbersOf_eq_map hls]
  rfl

/-- Searching among numbers finds the numbers of what is found among labels. -/
theorem extract_numbersOf (minDensity : ω) {fuel : Nat} : ∀ {ls : List String},
    (∀ l ∈ ls, l ∈ g.labels) → ls.Nodup →
      extract g.labels.toList.toArray.size (g.links g.numbers) minDensity fuel
          (numbersOf g.numbers ls) =
        (searchAmong g.edges minDensity fuel ls).map fun found =>
          (numbersOf g.numbers found.1, found.2) := by
  induction fuel with
  | zero => exact fun _ _ => rfl
  | succ fuel ih =>
    intro ls hls hnodup
    have hempty : (numbersOf g.numbers ls).isEmpty = ls.isEmpty := by
      rw [numbersOf_eq_map hls, List.isEmpty_map]
    rw [extract, searchAmong, hempty, densestWithin_numbersOf hls hnodup]
    by_cases he : ls.isEmpty = true
    · rw [if_pos he, if_pos he]
      rfl
    · rw [if_neg he, if_neg he]
      dsimp only
      split
      next => rfl
      next =>
        rw [List.map_cons, filter_numbersOf hls,
          ih (fun l hl => hls l (List.mem_of_mem_filter hl)) (hnodup.filter _)]

/-- Whatever is found is the densest set among some of the labels. -/
theorem exists_of_mem_searchAmong {edges : List (Edge ω)} {minDensity : ω} {fuel : Nat} :
    ∀ {ls : List String}, ∀ found ∈ searchAmong edges minDensity fuel ls,
      ∃ rest, rest ≠ [] ∧ (∀ l ∈ rest, l ∈ ls) ∧ found = densestAmong edges rest := by
  induction fuel with
  | zero => exact fun found hfound => absurd hfound List.not_mem_nil
  | succ fuel ih =>
    intro ls found hfound
    rw [searchAmong] at hfound
    split at hfound
    next => exact absurd hfound List.not_mem_nil
    next hne =>
      dsimp only at hfound
      split at hfound
      next => exact absurd hfound List.not_mem_nil
      next =>
        rcases List.mem_cons.mp hfound with hfirst | hrest
        · exact ⟨ls, fun he => hne (List.isEmpty_iff.mpr he), fun _ hl => hl, hfirst⟩
        · obtain ⟨rest, hrest, hmem, hfound⟩ := ih found hrest
          exact ⟨rest, hrest, fun l hl => List.mem_of_mem_filter (hmem l hl), hfound⟩

/-- Everything found is among the labels. -/
theorem mem_of_mem_searchAmong {edges : List (Edge ω)} {minDensity : ω} {fuel : Nat}
    {found : List String × ω} (hfound : found ∈ searchAmong edges minDensity fuel ls) :
    ∀ l ∈ found.1, l ∈ ls := by
  obtain ⟨rest, -, hmem, rfl⟩ := exists_of_mem_searchAmong found hfound
  exact fun l hl => hmem l (mem_of_mem_densestAmong hl)

/-- What is found does not depend on edges that do not join two of the labels. -/
theorem searchAmong_filter {edges : List (Edge ω)} {p : Edge ω → Bool} (minDensity : ω)
    {fuel : Nat} : ∀ {ls : List String}, ls.Nodup →
      (∀ e ∈ edges, e.source ∈ ls → e.target ∈ ls → p e = true) →
        searchAmong (edges.filter p) minDensity fuel ls = searchAmong edges minDensity fuel ls := by
  induction fuel with
  | zero => exact fun _ _ => rfl
  | succ fuel ih =>
    intro ls hnodup hp
    have hdensest : densestAmong (edges.filter p) ls = densestAmong edges ls := by
      unfold densestAmong
      rw [filterMap_linkOf?_filter hnodup edges hp]
    have hrest := ih (hnodup.filter fun l => l ∉ (densestAmong edges ls).1) fun e he hs ht =>
      hp e he (List.mem_of_mem_filter hs) (List.mem_of_mem_filter ht)
    rw [searchAmong, searchAmong, hdensest]
    dsimp only
    rw [hrest]

/-- The peeling takes away fewer than all members. -/
theorem length_go_lt (adj : Adjacency ω) {size left : Nat} : ∀ {p : Peel ω} {peeled : List Nat}
    {best : ω × List Nat}, peeled.length + left ≤ size → best.2.length < size →
      (Peel.go adj left p peeled best).2.length < size := by
  induction left with
  | zero => exact fun _ hbest => hbest
  | succ left ih =>
    intro p peeled best hpeeled hbest
    rw [Peel.go]
    split
    next => exact hbest
    next node p' _ =>
      dsimp only
      split
      next => exact hbest
      next hleft =>
        refine ih (by rw [List.length_cons]; omega) ?_
        split
        next =>
          show (node :: peeled).length < size
          rw [List.length_cons]
          omega
        next => exact hbest

/-- Among some labels something is found. -/
theorem densestAmong_ne_nil (edges : List (Edge ω)) (hne : ls ≠ []) :
    (densestAmong edges ls).1 ≠ [] := by
  have hpos := List.length_pos_iff.mpr hne
  refine undropped_ne_nil (length_go_lt _ ?_ hpos)
  rw [size_ofLinks]
  exact Nat.le_of_eq (Nat.zero_add _)

/-- Nothing found is empty. -/
theorem ne_nil_of_mem_searchAmong {edges : List (Edge ω)} {minDensity : ω} {fuel : Nat}
    {found : List String × ω} (hfound : found ∈ searchAmong edges minDensity fuel ls) :
    found.1 ≠ [] := by
  obtain ⟨rest, hne, -, rfl⟩ := exists_of_mem_searchAmong found hfound
  exact densestAmong_ne_nil edges hne

end Search

/-! ## Searching a component -/

/-- A set that was found. -/
def foundBlob (found : List String × ω) : Subgraph ω where
  nodes := Std.ExtTreeSet.ofList found.1
  density := found.2

/-- The blobs among some labels. -/
def blobsAmong (edges : List (Edge ω)) (minDensity : ω) (c : LabelSet) : List (Subgraph ω) :=
  (searchAmong edges minDensity c.toList.length c.toList).map foundBlob

section Component

variable {g : Graph ω} {c : LabelSet} {minDensity : ω}

/-- The blobs of a component are told by its labels and the edges. -/
theorem blobsWithin_eq (hc : ∀ l ∈ c, l ∈ g.labels) :
    blobsWithin g.labels.toList.toArray g.numbers (g.links g.numbers) minDensity c =
      blobsAmong g.edges minDensity c := by
  have hls : ∀ l ∈ c.toList, l ∈ g.labels := fun l hl => hc l (Std.ExtTreeSet.mem_toList.mp hl)
  show (extract _ _ minDensity (numbersOf g.numbers c.toList).length
    (numbersOf g.numbers c.toList)).map _ = _
  rw [length_numbersOf hls, extract_numbersOf minDensity hls (nodup_toList c), List.map_map]
  refine List.map_congr_left fun found hfound => ?_
  have hfound' : ∀ l ∈ found.1, l ∈ g.labels :=
    fun l hl => hls l (mem_of_mem_searchAmong hfound l hl)
  show Subgraph.mk (Std.ExtTreeSet.ofList ((numbersOf g.numbers found.1).filterMap fun m =>
    g.labels.toList.toArray[m]?) : LabelSet) found.2 = foundBlob found
  rw [filterMap_numbersOf hfound']
  rfl

/-- The blobs of a component have labels of it only. -/
theorem mem_of_mem_blobsAmong {edges : List (Edge ω)} {b : Subgraph ω}
    (hb : b ∈ blobsAmong edges minDensity c) : ∀ l ∈ b.nodes, l ∈ c := by
  obtain ⟨found, hfound, rfl⟩ := List.mem_map.mp hb
  intro l hl
  exact Std.ExtTreeSet.mem_toList.mp
    (mem_of_mem_searchAmong hfound l (mem_ofList_iff.mp hl))

/-- No blob is empty. -/
theorem exists_mem_of_mem_blobsAmong {edges : List (Edge ω)} {b : Subgraph ω}
    (hb : b ∈ blobsAmong edges minDensity c) : ∃ l, l ∈ b.nodes := by
  obtain ⟨found, hfound, rfl⟩ := List.mem_map.mp hb
  obtain ⟨l, hl⟩ := List.exists_mem_of_ne_nil _ (ne_nil_of_mem_searchAmong hfound)
  exact ⟨l, mem_ofList_iff.mpr hl⟩

/-- The blobs of a graph that is not too large, component by component. -/
theorem findBlobs_components (hd : Weight.isNonnegative minDensity = true)
    (hsize : g.nodes.length ≤ maxSearchedNodes) :
    g.findBlobs minDensity =
      .ok (g.components.flatMap
        (blobsWithin g.labels.toList.toArray g.numbers (g.links g.numbers) minDensity)) := by
  rw [findBlobs, hd, if_neg (by simp), if_neg (Nat.not_lt.mpr hsize)]

/-- A graph that is too large has the same blobs for every least density. -/
theorem findBlobs_of_large (hd : Weight.isNonnegative minDensity = true)
    (hsize : maxSearchedNodes < g.nodes.length) :
    g.findBlobs minDensity = .ok (g.nodes.map fun n =>
      { nodes := Std.ExtTreeSet.ofList [n.label], density := Weight.zero }) := by
  rw [findBlobs, hd, if_neg (by simp), if_pos hsize]

end Component

end Graph

end Cochange
