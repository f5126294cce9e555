import Cochange.Proofs.Tree.Descendants
import Cochange.Proofs.Walk.Preorder

/-!
# Undoing an addition

The links of a tree are told by its nodes: they lead from the node around each present node to this
node, and no empty set of links is kept. So two such trees with the same nodes are equal
(`eq_of_get?`), and to undo an addition it is enough to take out the nodes that it put in.

All nodes of a walk are below the one it begins with, since each other one stands in a node that is
listed too (`below_of_mem_walk`). If nothing was there before, nothing else is below it, so the
removal finds exactly the nodes that were added, though some of them may have been added twice.

Main result: `remove_undoes_add`.
-/

namespace Cochange

namespace SourceTree

variable {t t' : SourceTree} {id x : QualifiedId} {n : SourceNode}
  {nodes : List (QualifiedId × SourceNode)}

/-! ## Trees with the same nodes -/

theorem contains_congr (h : ∀ x, t.get? x = t'.get? x) (x : QualifiedId) :
    t.contains x = true ↔ t'.contains x = true := by
  rw [contains_iff, contains_iff, h x]

/-- Where there are no links in one tree there are none in another one with the same nodes. -/
theorem children_eq_none (ht : t.Linked) (ht' : t'.Linked) (htidy' : t'.Tidy)
    (h : ∀ x, t.get? x = t'.get? x) {p : QualifiedId} (hp : t.children[p]? = none) :
    t'.children[p]? = none := by
  cases hs : t'.children[p]? with
  | none => rfl
  | some s =>
    obtain ⟨c, hc⟩ := htidy' p s hs
    obtain ⟨hparent, hcontains⟩ := (ht' p c).mp (mem_childList.mpr ⟨s, hs, hc⟩)
    obtain ⟨s', hs', -⟩ :=
      mem_childList.mp ((ht p c).mpr ⟨hparent, (contains_congr h c).mpr hcontains⟩)
    rw [hp] at hs'
    cases hs'

/-- Two trees with the same nodes have the same links. -/
theorem eq_of_get? (ht : t.Linked) (htidy : t.Tidy) (ht' : t'.Linked) (htidy' : t'.Tidy)
    (h : ∀ x, t.get? x = t'.get? x) : t = t' := by
  have hkinds : t.kinds = t'.kinds := Std.ExtTreeMap.ext_getElem? h
  have hchildren : t.children = t'.children := by
    refine Std.ExtTreeMap.ext_getElem? fun p => ?_
    cases hs : t.children[p]? with
    | none => exact (children_eq_none ht ht' htidy' h hs).symm
    | some s =>
      cases hs' : t'.children[p]? with
      | none =>
        rw [children_eq_none ht' ht htidy (fun x => (h x).symm) hs'] at hs
        cases hs
      | some s' =>
        refine congrArg some (Std.ExtTreeSet.ext_mem fun c => ?_)
        have hlinks : c ∈ t.childList p ↔ c ∈ t'.childList p := by
          rw [ht p c, ht' p c, contains_congr h c]
        simpa [mem_childList, hs, hs'] using hlinks
  cases t
  cases t'
  exact congrArg₂ SourceTree.mk hkinds hchildren

/-! ## What an addition puts in -/

/-- The nodes of a walk with their kinds. -/
def withKinds (nodes : List (QualifiedId × SourceNode)) : List (QualifiedId × NodeKind) :=
  nodes.map fun n => (n.1, n.2.kind)

theorem mem_withKinds : x ∈ (withKinds nodes).map (·.1) ↔ ∃ m ∈ nodes, m.1 = x := by
  simp [withKinds]

/-- A node has a last kind if it is listed. -/
theorem mem_of_lastKind {added : List (QualifiedId × NodeKind)} {k : NodeKind}
    (h : lastKind added x = some k) : x ∈ added.map (·.1) := by
  by_contra hnot
  rw [lastKind_eq_none_iff.mpr hnot] at h
  cases h

/-- The tree with some nodes more. -/
def withNodes (t : SourceTree) (added : List (QualifiedId × NodeKind)) : SourceTree :=
  added.foldl (fun t a => t.insertNode a.1 a.2) t

/-- Adding nodes adds their ids. -/
theorem contains_withNodes {added : List (QualifiedId × NodeKind)} :
    (t.withNodes added).contains x = true ↔ x ∈ added.map (·.1) ∨ t.contains x = true := by
  rw [contains_iff, contains_iff, withNodes, get?_foldl_insertNode]
  cases hlast : lastKind added x with
  | none => rw [Option.none_or, or_iff_right (lastKind_eq_none_iff.mp hlast)]
  | some k => exact iff_of_true ⟨k, rfl⟩ (Or.inl (mem_of_lastKind hlast))

/-- The removal of an absent node changes nothing. -/
theorem remove_of_absent (hid : t.contains id = false) : t.remove id = t := by
  rw [remove, hid]
  rfl

/-- Where nothing stands, an addition is no more than putting in the nodes of the walk. -/
theorem add_of_absent (hid : t.contains id = false) (h : n.walk id = .ok nodes) :
    t.add id n = .ok (t.withNodes (withKinds nodes), withKinds nodes) := by
  rw [add, h]
  dsimp only
  rw [remove_of_absent hid]
  rfl

/-- The nodes of a walk are below the one it begins with. -/
theorem below_of_mem_walk (h : n.walk id = .ok nodes)
    (hall : ∀ m ∈ nodes, t.contains m.1 = true) {m : QualifiedId × SourceNode} (hm : m ∈ nodes) :
    t.Below id m.1 := by
  obtain ⟨p, hp⟩ := (SourceNode.mem_walk_iff h).mp hm
  induction p using List.reverseRecOn generalizing m with
  | nil =>
    cases hp
    exact .self (hall _ hm)
  | append_singleton p i ih =>
    obtain ⟨above, habove, -, hchild⟩ := SourceNode.entryAt?_concat.mp hp
    have hbelow := ih ((SourceNode.mem_walk_iff h).mpr ⟨p, habove⟩) habove
    exact .step hbelow (hall m hm) (QualifiedId.parent?_of_child hchild)

/-- Where nothing stands and nothing is nested, the nodes below are those that were added. -/
theorem below_withNodes_iff (hfree : ∀ x, t.contains x = true → ¬x.IsNestedIn id)
    (h : n.walk id = .ok nodes) :
    (t.withNodes (withKinds nodes)).Below id x ↔ x ∈ (withKinds nodes).map (·.1) := by
  constructor
  · intro hx
    rcases contains_withNodes.mp hx.contains with hadded | hold
    · exact hadded
    · exact absurd hx.isNestedIn (hfree x hold)
  · intro hx
    obtain ⟨m, hm, rfl⟩ := mem_withKinds.mp hx
    refine below_of_mem_walk h (fun m' hm' => ?_) hm
    exact contains_withNodes.mpr (Or.inl (mem_withKinds.mpr ⟨m', hm', rfl⟩))

theorem linked_withNodes (ht : t.Linked) (added : List (QualifiedId × NodeKind)) :
    (t.withNodes added).Linked :=
  kept_linked.foldl_insertNode added ht

theorem tidy_withNodes (ht : t.Tidy) (added : List (QualifiedId × NodeKind)) :
    (t.withNodes added).Tidy :=
  kept_tidy.foldl_insertNode added ht

/-! ## Taking it out again -/

/-- If the nodes below `id` are those that were added, the removal leaves the tree as it was. -/
theorem remove_withNodes (ht : t.Linked) (htidy : t.Tidy)
    {added : List (QualifiedId × NodeKind)} (hnew : ∀ x ∈ added.map (·.1), t.contains x = false)
    (hbelow : ∀ x, (t.withNodes added).Below id x ↔ x ∈ added.map (·.1)) :
    (t.withNodes added).remove id = t := by
  have hlinked := linked_withNodes ht added
  refine eq_of_get? (hlinked.remove id) ((tidy_withNodes htidy added).remove id) ht htidy
    fun x => ?_
  by_cases hx : x ∈ added.map (·.1)
  · rw [get?_remove_of_below hlinked ((hbelow x).mpr hx)]
    exact (contains_eq_false_iff.mp (hnew x hx)).symm
  · rw [get?_remove_of_not_below hlinked (mt (hbelow x).mp hx), withNodes, get?_foldl_insertNode,
      lastKind_eq_none_iff.mpr hx, Option.none_or]

/-- What is removed has the kind with which it was added last. -/
theorem mem_removed_withNodes (ht : t.Linked) {added : List (QualifiedId × NodeKind)}
    (hbelow : ∀ x, (t.withNodes added).Below id x ↔ x ∈ added.map (·.1)) {k : NodeKind} :
    (x, k) ∈ (t.withNodes added).removed id ↔ lastKind added x = some k := by
  have hlinked := linked_withNodes ht added
  have hremoved : (x, k) ∈ (t.withNodes added).removed id ↔
      (x, k) ∈ (t.withNodes added).descendants id := by
    unfold removed
    split
    next => exact Iff.rfl
    next hid =>
      refine iff_of_false List.not_mem_nil fun h => hid ?_
      exact ((mem_descendants_iff hlinked).mp h).2.contains_top
  rw [hremoved, mem_descendants_iff hlinked, hbelow, withNodes, get?_foldl_insertNode]
  cases hlast : lastKind added x with
  | none =>
    have hnot := lastKind_eq_none_iff.mp hlast
    exact iff_of_false (fun h => hnot h.2) (by simp)
  | some k' => rw [Option.some_or, and_iff_left (mem_of_lastKind hlast)]

/-- A removal reports no id twice. -/
theorem nodup_removed (ht : t.Linked) (id : QualifiedId) : ((t.removed id).map (·.1)).Nodup := by
  unfold removed
  split
  next => exact nodup_descendants ht id
  next => exact List.nodup_nil

/-- Whatever operations built the tree, adding a node that can be walked where no node stands or is
nested, and removing it again, gives back the tree with all its kinds and links. The removal reports
exactly the nodes that the addition reported, each once, and with the kind that was added last. -/
theorem remove_undoes_add (ops : List Operation) (id : QualifiedId) (node : SourceNode)
    (nodes : List (QualifiedId × SourceNode)) (habsent : (built ops).contains id = false)
    (hfree : ∀ x, (built ops).contains x = true → id ∉ x.ancestors)
    (hwalk : node.walk id = .ok nodes) :
    ∃ (t : SourceTree) (added : List (QualifiedId × NodeKind)),
      (built ops).add id node = .ok (t, added) ∧
      t.remove id = built ops ∧
      ((t.removed id).map (·.1)).Nodup ∧
      (∀ x, x ∈ (t.removed id).map (·.1) ↔ x ∈ added.map (·.1)) ∧
      ∀ x k, (x, k) ∈ t.removed id ↔ lastKind added x = some k := by
  have ht := linked_built ops
  have hnested : ∀ x, (built ops).contains x = true → ¬x.IsNestedIn id := by
    rintro x hx (rfl | hin)
    · rw [habsent] at hx
      cases hx
    · exact hfree x hx hin
  have hbelow := fun x => below_withNodes_iff (x := x) hnested hwalk
  have hnew : ∀ x ∈ (withKinds nodes).map (·.1), (built ops).contains x = false := by
    intro x hx
    refine Bool.eq_false_iff.mpr fun hold => hnested x hold ?_
    exact ((hbelow x).mpr hx).isNestedIn
  have hlinked := linked_withNodes ht (withKinds nodes)
  refine ⟨_, _, add_of_absent habsent hwalk, remove_withNodes ht (tidy_built ops) hnew hbelow,
    nodup_removed hlinked id, fun x => ?_, fun x k => mem_removed_withNodes ht hbelow⟩
  rw [mem_removed hlinked, hbelow]

/-- A source file in which there is nothing yet. -/
def emptyFile : List Operation :=
  [.add (.ofPath sampleType.path) (.file "a.rs" [])]

theorem contains_emptyFile (h : (built emptyFile).contains x = true) :
    x = .ofPath sampleType.path := by
  have hbuilt : built emptyFile =
      empty.withNodes (withKinds [(.ofPath sampleType.path, .file "a.rs" [])]) := by
    have hadd : empty.add (.ofPath sampleType.path) (.file "a.rs" []) = .ok _ :=
      add_of_absent rfl rfl
    rw [built, emptyFile, List.foldl_cons, List.foldl_nil, perform, hadd]
  rw [hbuilt, contains_withNodes] at h
  rcases h with h | h
  · exact List.mem_singleton.mp h
  · cases h

/-- A type with two members that look alike is put into the file, which had no links, and taken out
again. -/
theorem remove_undoes_add_repeated : ∃ (t : SourceTree) (added : List (QualifiedId × NodeKind)),
    (built emptyFile).add sampleType SourceNode.repeatedType = .ok (t, added) ∧
      t.remove sampleType = built emptyFile ∧ ((t.removed sampleType).map (·.1)).Nodup ∧
        ∀ x, x ∈ (t.removed sampleType).map (·.1) ↔ x ∈ added.map (·.1) := by
  obtain ⟨nodes, hwalk⟩ : ∃ nodes, SourceNode.repeatedType.walk sampleType = .ok nodes := ⟨_, rfl⟩
  have habsent : (built emptyFile).contains sampleType = false := by
    refine Bool.eq_false_iff.mpr fun h => ?_
    exact absurd (contains_emptyFile h) (by decide)
  have hfree : ∀ x, (built emptyFile).contains x = true → sampleType ∉ x.ancestors := by
    intro x hx
    rw [contains_emptyFile hx, QualifiedId.ancestors_of_parent?_eq_none rfl]
    exact List.not_mem_nil
  obtain ⟨t, added, hadd, hremove, hnodup, hids, -⟩ :=
    remove_undoes_add emptyFile sampleType SourceNode.repeatedType nodes habsent hfree hwalk
  exact ⟨t, added, hadd, hremove, hnodup, hids⟩

end SourceTree

end Cochange
