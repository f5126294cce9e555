import Cochange.DivergentChange
import Cochange.Proofs.Files.Contexts
import Cochange.Proofs.Files.Counts

/-!
# Files do not influence each other

What a context tells about a source file depends on the edits to this file only. Cutting a history
down to the file changes handles, trees and matrices, but neither which of the file's entities are
tracked, nor their counts and couplings, nor its graph, nor what is found in that graph.

* `Context.Alike.graphOf`: contexts that are alike for a file have the same graph for it.
* `finish_ofFile_agrees`: the context of a history and that of its part for one file agree on that
  file, if no revision is a bulk change. A bulk change would be none any more in the part.
-/

namespace Cochange

namespace Context

variable {ω : Type} {c c' : Context ω} {path : String}

/-! ## The entities of a file -/

/-- The tracked entities of a source file, in order. -/
def idsOf (c : Context ω) (path : String) : List QualifiedId :=
  c.entityIds.toList.filter fun x => x.sourcePath = path

/-- The entities of a file are listed in order. -/
theorem idsOf_sorted (c : Context ω) (path : String) : StrictlySorted id (c.idsOf path) :=
  List.Pairwise.filter _ (sorted_toList c.entityIds)

/-- An entity joins those gathered so far. -/
def gather (s : Option (Std.ExtTreeSet QualifiedId)) (id : QualifiedId) :
    Option (Std.ExtTreeSet QualifiedId) :=
  some ((s.getD ∅).insert id)

/-- Entities are gathered file by file, so that those of other files play no part. -/
theorem getElem?_foldl_gather (ids : List QualifiedId) :
    ∀ (files : Std.ExtTreeMap String (Std.ExtTreeSet QualifiedId)),
    (ids.foldl (fun files id => files.alter id.sourcePath (gather · id)) files)[path]? =
      (ids.filter fun x => x.sourcePath = path).foldl gather files[path]? := by
  induction ids with
  | nil => exact fun _ => rfl
  | cons id ids ih =>
    intro files
    rw [List.foldl_cons, ih, Std.ExtTreeMap.getElem?_alter]
    by_cases hid : id.sourcePath = path
    · rw [List.filter_cons_of_pos (by simpa using hid), List.foldl_cons,
        if_pos (Std.compare_eq_iff_eq.mpr hid), hid]
    · rw [List.filter_cons_of_neg (by simpa using hid),
        if_neg fun he => hid (Std.compare_eq_iff_eq.mp he)]

theorem foldl_gather_some (ids : List QualifiedId) : ∀ (s : Std.ExtTreeSet QualifiedId),
    ids.foldl gather (some s) = some (s.insertMany ids) := by
  induction ids with
  | nil => exact fun s => congrArg some Std.ExtTreeSet.insertMany_nil.symm
  | cons id ids ih =>
    intro s
    rw [Std.ExtTreeSet.insertMany_cons]
    exact ih (s.insert id)

/-- A file is listed, with its tracked entities, if it has any. -/
theorem getElem?_idsByFile (c : Context ω) (path : String) :
    c.idsByFile[path]? =
      if c.idsOf path = [] then none else some (Std.ExtTreeSet.ofList (c.idsOf path)) := by
  refine (getElem?_foldl_gather c.entityIds.toList ∅).trans ?_
  rw [Std.ExtTreeMap.getElem?_empty]
  show (c.idsOf path).foldl gather none = _
  cases c.idsOf path with
  | nil => rfl
  | cons id ids =>
    rw [if_neg (List.cons_ne_nil id ids), Std.ExtTreeSet.ofList_cons]
    exact foldl_gather_some ids _

/-- What stands under a file are entities of it. -/
theorem sourcePath_of_mem_idsByFile {s : Std.ExtTreeSet QualifiedId}
    (hs : c.idsByFile[path]? = some s) : ∀ x : QualifiedId, x ∈ s → x.sourcePath = path := by
  intro x hx
  rw [getElem?_idsByFile] at hs
  split at hs
  next => cases hs
  next =>
    cases hs
    have hmem := (List.mem_filter.mp (mem_ofList_iff.mp hx)).2
    exact of_decide_eq_true hmem

/-! ## The graph of a file -/

/-- An edge goes to a larger one of the given entities. -/
theorem edgesFrom_eq (c : Context ω) (ids : Std.ExtTreeSet QualifiedId) (x : QualifiedId) :
    c.edgesFrom ids x =
      ((c.neighbors x).filter fun n => (compare x n.1).isLT && ids.contains n.1).filterMap
        fun n => some
          { source := x.text, target := n.1.text, revisions := c.jointChangeCount x n.1,
            coupling := n.2 } := by
  rw [List.filterMap_filter]
  rfl

namespace Alike

/-- Contexts that are alike on a file list the same entities under it. -/
theorem idsOf (h : Alike path c c') : c.idsOf path = c'.idsOf path := by
  refine (c.idsOf_sorted path).eq_of_mem_iff (c'.idsOf_sorted path) fun x => ?_
  unfold Context.idsOf
  rw [List.mem_filter, List.mem_filter, Std.ExtTreeSet.mem_toList, Std.ExtTreeSet.mem_toList,
    mem_entityIds h.interner, mem_entityIds h.interner']
  refine and_congr_left fun hx => ?_
  rw [h.contains (of_decide_eq_true hx)]

/-- Contexts that are alike on a file have the same set of entities under it. -/
theorem getElem?_idsByFile (h : Alike path c c') : c.idsByFile[path]? = c'.idsByFile[path]? := by
  rw [Context.getElem?_idsByFile, Context.getElem?_idsByFile, h.idsOf]

variable {ids : Std.ExtTreeSet QualifiedId}

/-- Contexts that are alike on a file have the same edges within it. -/
theorem edgesFrom (h : Alike path c c') (hids : ∀ x ∈ ids, x.sourcePath = path) {x : QualifiedId}
    (hx : x.sourcePath = path) : c.edgesFrom ids x = c'.edgesFrom ids x := by
  have hsorted : ∀ c : Context ω, c.interner.Valid → StrictlySorted (·.1)
      ((c.neighbors x).filter fun n => (compare x n.1).isLT && ids.contains n.1) :=
    fun c hc => (strictlySorted_neighbors hc x).filter _
  have hsame := (hsorted c h.interner).eq_of_mem_iff (hsorted c' h.interner') (by
    rintro ⟨y, v⟩
    rw [List.mem_filter, List.mem_filter, mem_neighbors h.interner, mem_neighbors h.interner',
      h.contains hx]
    refine and_congr_left fun hy => and_congr_right fun _ => ?_
    rw [Bool.and_eq_true, Std.ExtTreeSet.contains_iff_mem] at hy
    rw [h.couplingCell? x y hx (hids y hy.2)])
  rw [edgesFrom_eq, edgesFrom_eq, hsame]
  refine List.filterMap_congr fun n hn => ?_
  have hn' := (List.mem_filter.mp hn).2
  rw [Bool.and_eq_true, Std.ExtTreeSet.contains_iff_mem] at hn'
  rw [h.jointChangeCount hx (hids n.1 hn'.2)]

/-- The graph of some entities of the file. -/
theorem graphOf (h : Alike path c c') (hids : ∀ x ∈ ids, x.sourcePath = path) (label : String) :
    c.graphOf label ids = c'.graphOf label ids := by
  have hmem : ∀ x ∈ ids.toList, x.sourcePath = path :=
    fun x hx => hids x (Std.ExtTreeSet.mem_toList.mp hx)
  have hnodes : ids.toList.map (fun x => (⟨x.text, c.changeCount x⟩ : Node)) =
      ids.toList.map fun x => ⟨x.text, c'.changeCount x⟩ := by
    refine List.map_congr_left fun x hx => ?_
    rw [h.changeCount (hmem x hx)]
  have hedges : ids.toList.flatMap (c.edgesFrom ids) = ids.toList.flatMap (c'.edgesFrom ids) := by
    refine List.flatMap_congr fun x hx => ?_
    rw [h.edgesFrom hids (hmem x hx)]
  unfold Context.graphOf
  rw [hnodes, hedges]

/-- The file has the same graph in both contexts, or none in either. -/
theorem fileGraphs (h : Alike path c c') :
    c.fileGraphs.filter (·.label = path) = c'.fileGraphs.filter (·.label = path) := by
  have hsorted : ∀ c : Context ω, StrictlySorted (·.1)
      (c.idsByFile.toList.filter fun f => f.1 = path) :=
    fun c => Std.ExtTreeMap.ordered_keys_toList.filter _
  have hsame := (hsorted c).eq_of_mem_iff (hsorted c') (by
    rintro ⟨p, s⟩
    rw [List.mem_filter, List.mem_filter, Std.ExtTreeMap.mem_toList_iff_getElem?_eq_some,
      Std.ExtTreeMap.mem_toList_iff_getElem?_eq_some]
    refine and_congr_left fun hp => ?_
    have hp : p = path := of_decide_eq_true hp
    rw [hp, h.getElem?_idsByFile])
  unfold Context.fileGraphs
  rw [List.filter_map, List.filter_map]
  show (c.idsByFile.toList.filter fun f => f.1 = path).map _ =
    (c'.idsByFile.toList.filter fun f => f.1 = path).map _
  rw [hsame]
  refine List.map_congr_left fun f hf => ?_
  obtain ⟨hf, hp⟩ := List.mem_filter.mp hf
  have hs := Std.ExtTreeMap.mem_toList_iff_getElem?_eq_some.mp hf
  rw [of_decide_eq_true hp] at hs
  exact h.graphOf (sourcePath_of_mem_idsByFile hs) f.1

end Alike

/-! ## Agreement on a file -/

/-- Two contexts tell the same about a source file: about its entities, about pairs of them, and
with its graph, its blobs and its anti-blob. -/
structure AgreeOn [Weight ω] (path : String) (c c' : Context ω) : Prop where
  tracked : ∀ x : QualifiedId, x.sourcePath = path → (x ∈ c.entityIds ↔ x ∈ c'.entityIds)
  changes : ∀ x : QualifiedId, x.sourcePath = path → c.changeCount x = c'.changeCount x
  recorded : ∀ x y : QualifiedId, x.sourcePath = path → y.sourcePath = path →
    ((y ∈ (c.neighbors x).map (·.1)) ↔ y ∈ (c'.neighbors x).map (·.1))
  joint : ∀ x y : QualifiedId, x.sourcePath = path → y.sourcePath = path →
    c.jointChangeCount x y = c'.jointChangeCount x y
  coupling : ∀ x y : QualifiedId, x.sourcePath = path → y.sourcePath = path →
    c.couplingOf x y = c'.couplingOf x y
  graph : c.fileGraphs.filter (·.label = path) = c'.fileGraphs.filter (·.label = path)
  blobs : ∀ minDensity, (c.fileGraphs.filter (·.label = path)).map (·.findBlobs minDensity) =
    (c'.fileGraphs.filter (·.label = path)).map (·.findBlobs minDensity)
  antiBlob : ∀ maxCoupling minSize,
    (c.fileGraphs.filter (·.label = path)).map (·.findAntiBlob maxCoupling minSize) =
      (c'.fileGraphs.filter (·.label = path)).map (·.findAntiBlob maxCoupling minSize)

/-- Contexts that are alike on a file agree on all that is asked about it. -/
theorem Alike.agreeOn [Weight ω] (h : Alike path c c') : AgreeOn path c c' where
  tracked x hx := by
    rw [mem_entityIds h.interner, mem_entityIds h.interner', h.contains hx]
  changes x hx := h.changeCount hx
  recorded x y hx hy := by
    simp only [List.mem_map, Prod.exists, exists_and_right, exists_eq_right,
      mem_neighbors h.interner, mem_neighbors h.interner', h.contains hx,
      h.couplingCell? x y hx hy]
  joint x y hx hy := h.jointChangeCount hx hy
  coupling x y hx hy := h.couplingOf hx hy
  graph := h.fileGraphs
  blobs minDensity := by rw [h.fileGraphs]
  antiBlob maxCoupling minSize := by rw [h.fileGraphs]

end Context

namespace ChangeCounter

variable {ω : Type} [Weight ω]

/-- Whenever a history is counted without error and none of its revisions is a bulk change, the
history that is left of it for one source file is counted without error, too, and gives the same
about this file: the tracked entities, their counts, joint changes and couplings, the graph, and
the blobs and the anti-blob found in it. -/
theorem finish_ofFile_agrees (ls : Languages) (limit : Nat) (rs : List Revision)
    (c : ChangeCounter) (hcounted : (start ls limit).processAll rs = .ok c)
    (hsmall : ∀ r ∈ rs, r.changeSet.size ≤ limit) (path : String) (minRevisions : Nat)
    (minCoupling : ω) :
    ∃ own, (start ls limit).processAll (rs.map (·.ofFile path)) = .ok own ∧
      Context.AgreeOn path (c.finish minRevisions minCoupling)
        (own.finish minRevisions minCoupling) := by
  obtain ⟨own, hown⟩ := exists_processAll_ofFile hcounted path
  have h := recounted_processAll ls limit rs c hcounted
  have h' := recounted_processAll ls limit _ own hown
  have hcontext : Context.Alike path (c.context : Context ω) own.context := by
    refine alike_context h.sound h'.sound ?_ ?_
    · intro x hx
      rw [h.changes, h'.changes, recount_ofFile ls hx]
    · intro x y hxy hx hy
      rw [h.joint x y hxy, h'.joint x y hxy, jointRecount_ofFile ls hsmall hx hy]
  exact ⟨own, hown, (hcontext.filter minRevisions minCoupling).agreeOn⟩

/-- Every revision touches two files; in one of them a function is removed at the end. -/
def twoFileHistory : List Revision :=
  [.ofEdits [.editEntity sampleH,
      .addNode sampleFile
        (.file "a.rs" [.ofSignature "f()", .ofSignature "g()", .ofName "v"])],
    .ofEdits [.editEntity sampleF, .editEntity sampleH, .editEntity sampleG],
    .ofEdits [.removeNode sampleG, .editEntity sampleF, .editEntity sampleH]]

/-- The edits of the other file stand between those of this one, and no revision exceeds the limit.
-/
theorem finish_ofFile_agrees_twoFiles :
    ∃ c own, (start {} 2).processAll twoFileHistory = .ok c ∧
      (∀ r ∈ twoFileHistory, r.changeSet.size ≤ 2) ∧
      (start {} 2).processAll (twoFileHistory.map (·.ofFile "a.rs")) = .ok own ∧
      Context.AgreeOn "a.rs" (c.finish 1 (0 : Rat)) (own.finish 1 0) ∧
      (own.finish 1 (0 : Rat)).changeCount sampleF = 3 := by
  have hcount : ((start {} 2).processAll twoFileHistory).toOption.map
      (fun c => (c.finish 1 (0 : Rat)).changeCount sampleF) = some 3 := by
    decide +kernel
  obtain ⟨c, h, hcount⟩ := exists_ok hcount
  have hsmall : ∀ r ∈ twoFileHistory, r.changeSet.size ≤ 2 := by decide +kernel
  obtain ⟨own, hown, hagree⟩ :=
    finish_ofFile_agrees {} 2 twoFileHistory c h hsmall "a.rs" 1 (0 : Rat)
  exact ⟨c, own, h, hsmall, hown, hagree, (hagree.changes sampleF rfl).symm.trans hcount⟩

end ChangeCounter

end Cochange
