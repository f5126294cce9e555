import Cochange.Proofs.Density.Blobs
import Cochange.Proofs.Graph.Disjoint

/-!
# Blobs that leave nothing out

The search of a component ends early only if what is found in the rest is too sparse. Where that
does not happen, every member is in one of the sets that are taken out (`Extraction.covers`).

Without any coupling below zero no density is below zero, so with a least density of zero it never
happens. Then the blobs take in all labels of the graph, each once, and so do the single labels
that stand for the blobs of a graph that is too large (`findBlobs_partition`).
-/

namespace Cochange

/-- Without any coupling below zero no density is below zero. -/
theorem density_nonneg {α : Type} {W : α → α → Rat} (hW : ∀ u v, 0 ≤ W u v) (S : Finset α) :
    0 ≤ density W S := by
  have hsum : 0 ≤ degreeSum W S :=
    Finset.sum_nonneg fun v _ => Finset.sum_nonneg fun u _ => hW v u
  exact div_nonneg hsum (Nat.cast_nonneg _)

namespace Graph

section Loop

variable {count : Nat} {links : List (Link Rat)} {minDensity : Rat} {members : List Nat}
variable {searched : List (List Nat)} {found : List (List Nat × Rat)}

/-- If every set found on the way is dense enough, each member is in one that is taken out. -/
theorem Extraction.covers (h : Extraction count links minDensity members searched found)
    (hdense : ∀ ms ∈ searched, minDensity ≤ (densestWithin count links ms).2) :
    ∀ m ∈ members, ∃ f ∈ found, m ∈ f.1 := by
  induction h with
  | nothing_left => exact fun m hm => absurd hm List.not_mem_nil
  | too_sparse hne hd =>
    exact absurd hd (not_lt.mpr (hdense _ (List.mem_singleton_self _)))
  | @taken members searched found hne hd rest ih =>
    intro m hm
    by_cases hfirst : m ∈ (densestWithin count links members).1
    · exact ⟨_, List.mem_cons_self, hfirst⟩
    -- what is not in the first set is looked for again
    · obtain ⟨f, hf, hmf⟩ := ih (fun ms hms => hdense ms (List.mem_cons_of_mem _ hms)) m
        (List.mem_filter.mpr ⟨hm, decide_eq_true hfirst⟩)
      exact ⟨f, List.mem_cons_of_mem _ hf, hmf⟩

/-- What is searched are members in their order. -/
theorem Extraction.searched_sorted (h : Extraction count links minDensity members searched found)
    (hsorted : members.Pairwise (· < ·)) (hlt : ∀ m ∈ members, m < count) :
    ∀ ms ∈ searched, ms.Pairwise (· < ·) ∧ ∀ m ∈ ms, m < count := by
  induction h with
  | nothing_left => exact fun ms hms => absurd hms List.not_mem_nil
  | too_sparse hne hd => exact fun ms hms => List.mem_singleton.mp hms ▸ ⟨hsorted, hlt⟩
  | taken hne hd rest ih =>
    intro ms hms
    rcases List.mem_cons.mp hms with rfl | hms
    · exact ⟨hsorted, hlt⟩
    · exact ih (hsorted.filter _) (fun m hm => hlt m (List.mem_of_mem_filter hm)) ms hms

/-- Without any coupling below zero no set found has a density below zero. -/
theorem densestWithin_nonneg (hlinks : ∀ l ∈ links, l.source ≠ l.target)
    (hnonneg : ∀ l ∈ links, 0 ≤ l.coupling) (hsorted : members.Pairwise (· < ·))
    (hlt : ∀ m ∈ members, m < count) (hne : members ≠ []) :
    0 ≤ (densestWithin count links members).2 := by
  rw [(densestWithin_cohesive hlinks hsorted hlt hne).density_eq]
  exact density_nonneg (coupled_nonneg hnonneg) _

end Loop

/-- With a least density of zero the search of a component finds all its labels. -/
theorem blobsWithin_covers {g : Graph Rat} (hnonneg : ∀ e ∈ g.edges, 0 ≤ e.coupling)
    {c : LabelSet} (hc : ∀ l ∈ c, l ∈ g.labels) {l : String} (hl : l ∈ c) :
    ∃ b ∈ blobsWithin g.labels.toList.toArray g.numbers (g.links g.numbers) 0 c, l ∈ b.nodes := by
  obtain ⟨⟨searched, found, hsearch, hne, hblobs⟩, -⟩ := g.blobsWithin_spec 0 c
  have hsorted := hsearch.searched_sorted (g.membersOf_sorted c) fun m hm => lt_of_mem_membersOf hm
  have hcovers := hsearch.covers fun ms hms =>
    densestWithin_nonneg (g.links_ne g.numbers) (links_nonneg hnonneg g.numbers)
      (hsorted ms hms).1 (hsorted ms hms).2 (hne ms hms)
  obtain ⟨m, hm⟩ := exists_number_iff.mpr (hc l hl)
  obtain ⟨f, hf, hmf⟩ := hcovers m (mem_membersOf.mpr ⟨l, hl, hm⟩)
  rw [hblobs]
  exact ⟨g.blobOf f, List.mem_map_of_mem hf, mem_blobOf.mpr ⟨m, hmf, hm⟩⟩

/-- What is found with a least density of zero: sets of labels, none of them empty, and each label
of the graph in one of them. -/
theorem exists_findBlobs_covering {g : Graph Rat} (hg : g.Distinct)
    (hnonneg : ∀ e ∈ g.edges, 0 ≤ e.coupling) :
    ∃ blobs, g.findBlobs 0 = .ok blobs ∧ (∀ b ∈ blobs, ∃ l, l ∈ b.nodes) ∧
      ∀ l, l ∈ g.labels ↔ ∃ b ∈ blobs, l ∈ b.nodes := by
  have hzero : Weight.isNonnegative (0 : Rat) = true := by decide
  rcases Nat.lt_or_ge maxSearchedNodes g.nodes.length with hlarge | hsmall
  · refine ⟨_, findBlobs_of_large hzero hlarge, fun b hb => ?_, fun l => ?_⟩
    · obtain ⟨n, -, rfl⟩ := List.mem_map.mp hb
      exact ⟨n.label, mem_ofList_iff.mpr (List.mem_singleton_self _)⟩
    · simp only [mem_labels, List.mem_map, exists_exists_and_eq_and, mem_ofList_iff,
        List.mem_singleton, @eq_comm _ l]
  · refine ⟨_, findBlobs_eq le_rfl hsmall, fun b hb => ?_, fun l => ⟨fun hl => ?_, fun hl => ?_⟩⟩
    · obtain ⟨c, -, hb⟩ := List.mem_flatMap.mp hb
      obtain ⟨l, hl⟩ := ((g.blobsWithin_spec 0 c).2.1 b hb).nonempty
      exact ⟨l, Subgraph.mem_nodeSet.mp hl⟩
    · obtain ⟨c, hc, hlc⟩ := exists_component hg hl
      obtain ⟨b, hb, hlb⟩ :=
        blobsWithin_covers hnonneg (fun _ => mem_labels_of_mem_component hg hc) hlc
      exact ⟨b, List.mem_flatMap.mpr ⟨c, hc, hb⟩, hlb⟩
    · obtain ⟨b, hb, hlb⟩ := hl
      obtain ⟨c, hc, hb⟩ := List.mem_flatMap.mp hb
      exact mem_labels_of_mem_component hg hc (((g.blobsWithin_spec 0 c).2.1 b hb).mem l hlb)

/-- With a least density of zero, and without any coupling below zero, the blobs are a partition of
the labels, however large the graph is: none is empty, each label of the graph is in exactly one of
them, and no other label is in any. -/
theorem findBlobs_partition (g : Graph Rat) (hg : g.Distinct)
    (hnonneg : ∀ e ∈ g.edges, 0 ≤ e.coupling) :
    ∃ blobs, g.findBlobs 0 = .ok blobs ∧ (∀ b ∈ blobs, ∃ l, l ∈ b.nodes) ∧
      (∀ l ∈ g.labels, ∃! i : Nat, ∃ b, blobs[i]? = some b ∧ l ∈ b.nodes) ∧
      ∀ b ∈ blobs, ∀ l ∈ b.nodes, l ∈ g.labels := by
  obtain ⟨blobs, hok, hnonempty, hcovers⟩ := exists_findBlobs_covering hg hnonneg
  obtain ⟨blobs', hok', hdisjoint⟩ :=
    exists_findBlobs_disjoint hg (show Weight.isNonnegative (0 : Rat) = true by decide)
  obtain rfl : blobs = blobs' := Except.ok.inj (hok.symm.trans hok')
  refine ⟨blobs, hok, hnonempty, fun l hl => ?_, fun b hb l hl => (hcovers l).mpr ⟨b, hb, hl⟩⟩
  obtain ⟨b, hb, hlb⟩ := (hcovers l).mp hl
  obtain ⟨i, hi⟩ := List.getElem?_of_mem hb
  refine ⟨i, ⟨b, hi, hlb⟩, fun j ⟨b', hj, hlb'⟩ => ?_⟩
  exact eq_of_mem_blobs hdisjoint hj hi hlb' hlb

/-- A triangle with a weak tail, at the end of which are a loop, an edge that leads to no node, and
two more nodes by edges of no coupling. -/
def tailedTriangle : Graph Rat where
  label := "g"
  nodes := ["a", "b", "c", "d", "e", "u", "v"].map fun l => ⟨l, 3⟩
  edges :=
    [⟨"a", "b", 2, 1⟩, ⟨"a", "c", 2, 1⟩, ⟨"b", "c", 2, 1⟩, ⟨"c", "d", 1, 1 / 4⟩,
      ⟨"d", "e", 1, 1 / 4⟩, ⟨"e", "e", 1, 1⟩, ⟨"e", "x", 1, 1 / 8⟩, ⟨"e", "u", 1, 0⟩,
      ⟨"u", "v", 1, 0⟩]

/-- The tail is found after the triangle, and in the end the two nodes that nothing is coupled
with. -/
theorem findBlobs_partition_tailed :
    ∃ blobs, tailedTriangle.findBlobs 0 = .ok blobs ∧
      blobs.map (·.nodes.toList) = [["a", "b", "c"], ["d", "e"], ["u", "v"]] ∧
      ∃! i : Nat, ∃ b, blobs[i]? = some b ∧ "d" ∈ b.nodes := by
  have hdistinct : tailedTriangle.Distinct := by decide
  obtain ⟨blobs, hok, -, hunique, -⟩ :=
    findBlobs_partition tailedTriangle hdistinct (by decide +kernel)
  have hnodes : ((tailedTriangle.findBlobs 0).toOption.getD []).map (·.nodes.toList) =
      [["a", "b", "c"], ["d", "e"], ["u", "v"]] := by decide +kernel
  have hlabel : "d" ∈ tailedTriangle.labels := by decide
  rw [hok] at hnodes
  exact ⟨blobs, hok, hnodes, hunique "d" hlabel⟩

end Graph

end Cochange
