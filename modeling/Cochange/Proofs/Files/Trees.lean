import Cochange.Proofs.Counting.Edited
import Cochange.Proofs.Tree.Ids

/-!
# The nodes of one source file

A tree is compared with another one as far as the nodes of a single source file go (`Alike`). An
edit acts on these nodes alone or does not act on them at all, for what is added with a node and
what is removed with it belongs to its file.

So trees stay alike when an edit is applied to both of them (`Alike.after`), and when an edit to
another file is applied to one of them (`Alike.after_other`). What edits leave edited of the file
is then the same, too (`mem_editedBy_ofFile`).
-/

namespace Cochange

/-- Two trees that hold the same nodes of a source file. -/
structure SourceTree.Alike (path : String) (t t' : SourceTree) : Prop where
  linked : t.Linked
  linked' : t'.Linked
  get? : ∀ x : QualifiedId, x.sourcePath = path → t.get? x = t'.get? x

namespace SourceTree

variable {path : String} {t t' : SourceTree} {id x : QualifiedId}

/-- What is below a node is in the file of the node. -/
theorem Below.sourcePath (h : t.Below id x) : x.sourcePath = id.sourcePath := by
  induction h with
  | self _ => rfl
  | step _ _ hpar ih => exact (QualifiedId.sourcePath_of_parent? hpar).symm.trans ih

namespace Alike

theorem symm (h : Alike path t t') : Alike path t' t :=
  ⟨h.linked', h.linked, fun x hx => (h.get? x hx).symm⟩

/-- Trees that are alike on a file hold the same nodes of it. -/
theorem contains (h : Alike path t t') (hx : x.sourcePath = path) :
    t.contains x = true ↔ t'.contains x = true := by
  rw [contains_iff, contains_iff, h.get? x hx]

/-- Trees that are alike on a file have the same nodes below those of it. -/
theorem below (h : Alike path t t') (hid : id.sourcePath = path) (hb : t.Below id x) :
    t'.Below id x := by
  induction hb with
  | self hc => exact .self ((h.contains hid).mp hc)
  | step hp hc hpar ih =>
    refine .step ih ((h.contains ?_).mp hc) hpar
    exact ((hp.step hc hpar).sourcePath).trans hid

/-! ## Single nodes and subtrees -/

/-- The same node put into both keeps trees alike. -/
theorem insertNode (h : Alike path t t') (id : QualifiedId) (k : NodeKind) :
    Alike path (t.insertNode id k) (t'.insertNode id k) where
  linked := h.linked.insertNode id k
  linked' := h.linked'.insertNode id k
  get? x hx := by rw [get?_insertNode, get?_insertNode, h.get? x hx]

/-- A node of another file put into one of them keeps trees alike. -/
theorem insertNode_other (h : Alike path t t') (hid : id.sourcePath ≠ path) (k : NodeKind) :
    Alike path (t.insertNode id k) t' where
  linked := h.linked.insertNode id k
  linked' := h.linked'
  get? x hx := by
    have hne : x ≠ id := fun he => hid (he ▸ hx)
    rw [get?_insertNode, if_neg hne, h.get? x hx]

/-- The same nodes put into both keep trees alike. -/
theorem foldl_insertNode (nodes : List (QualifiedId × NodeKind)) : ∀ {t t' : SourceTree},
    Alike path t t' →
    Alike path (nodes.foldl (fun t n => t.insertNode n.1 n.2) t)
      (nodes.foldl (fun t n => t.insertNode n.1 n.2) t') := by
  induction nodes with
  | nil => exact fun h => h
  | cons n nodes ih => exact fun h => ih (h.insertNode n.1 n.2)

/-- Nodes of other files put into one of them keep trees alike. -/
theorem foldl_insertNode_other (nodes : List (QualifiedId × NodeKind))
    (hnodes : ∀ n ∈ nodes, n.1.sourcePath ≠ path) : ∀ {t : SourceTree}, Alike path t t' →
    Alike path (nodes.foldl (fun t n => t.insertNode n.1 n.2) t) t' := by
  induction nodes with
  | nil => exact fun h => h
  | cons n nodes ih =>
    intro t h
    exact ih (fun m hm => hnodes m (List.mem_cons_of_mem n hm))
      (h.insertNode_other (hnodes n List.mem_cons_self) n.2)

/-- Removing a node of another file from one of them keeps trees alike. -/
theorem remove_other (h : Alike path t t') (hid : id.sourcePath ≠ path) :
    Alike path (t.remove id) t' where
  linked := h.linked.remove id
  linked' := h.linked'
  get? x hx := by
    rw [get?_remove_of_not_below h.linked fun hb => hid (hb.sourcePath ▸ hx), h.get? x hx]

/-- The same removal from both keeps trees alike. -/
theorem remove (h : Alike path t t') (id : QualifiedId) :
    Alike path (t.remove id) (t'.remove id) := by
  by_cases hid : id.sourcePath = path
  · refine ⟨h.linked.remove id, h.linked'.remove id, fun x hx => ?_⟩
    by_cases hb : t.Below id x
    · rw [get?_remove_of_below h.linked hb, get?_remove_of_below h.linked' (h.below hid hb)]
    · have hb' : ¬t'.Below id x := fun hb' => hb (h.symm.below hid hb')
      rw [get?_remove_of_not_below h.linked hb, get?_remove_of_not_below h.linked' hb',
        h.get? x hx]
  · exact ((h.remove_other hid).symm.remove_other hid).symm

/-! ## Edits -/

/-- An edit that both trees undergo. -/
theorem after (h : Alike path t t') (e : Edit) : Alike path (t.after e) (t'.after e) := by
  cases e with
  | addNode id node =>
    rw [after_addNode, after_addNode]
    cases node.walk id with
    | error why => exact h
    | ok nodes => exact (h.remove id).foldl_insertNode _
  | removeNode id => exact h.remove id
  | editEntity id => exact h

/-- An edit to another file that only one of the trees undergoes. -/
theorem after_other (h : Alike path t t') {e : Edit} (he : e.sourcePath ≠ path) :
    Alike path (t.after e) t' := by
  cases e with
  | addNode id node =>
    rw [after_addNode]
    cases hw : node.walk id with
    | error why => exact h
    | ok nodes =>
      refine (h.remove_other he).foldl_insertNode_other _ fun n hn => ?_
      obtain ⟨m, hm, rfl⟩ := List.mem_map.mp hn
      exact fun hpath => he ((sourcePath_of_mem_walk hw m hm).symm.trans hpath)
  | removeNode id => exact h.remove_other he
  | editEntity id => exact h

end Alike

end SourceTree

/-! ## What edits leave edited -/

/-- The edits to a source file. -/
def Edit.ofFile (path : String) (es : List Edit) : List Edit :=
  es.filter fun e => e.sourcePath = path

open SourceTree

variable {path : String} {t t' : SourceTree} {ls : Languages} {before before' : Finset QualifiedId}

/-- An edit to the file does the same to its entities in either tree. -/
theorem mem_editedAfter_iff (h : Alike path t t') {e : Edit} (he : e.sourcePath = path)
    {x : QualifiedId} (hb : x ∈ before ↔ x ∈ before') :
    x ∈ e.editedAfter ls t before ↔ x ∈ e.editedAfter ls t' before' := by
  cases e with
  | addNode id node =>
    rw [Edit.editedAfter, Edit.editedAfter]
    cases node.walk id with
    | error why => exact hb
    | ok nodes => rw [Finset.mem_union, Finset.mem_union, hb]
  | removeNode id =>
    rw [Edit.editedAfter, Edit.editedAfter, Finset.mem_filter, Finset.mem_filter, hb]
  | editEntity id =>
    rw [Edit.editedAfter, Edit.editedAfter, h.get? id he]
    cases t'.get? id with
    | none => rw [Finset.mem_insert, Finset.mem_insert, hb]
    | some kind =>
      dsimp only
      by_cases hk : ls.isTrackable id kind = true
      · rw [if_pos hk, if_pos hk, Finset.mem_insert, Finset.mem_insert, hb]
      · rw [if_neg hk, if_neg hk, hb]

/-- An edit to another file does nothing to entities of the file. -/
theorem mem_editedAfter_other {e : Edit} (he : e.sourcePath ≠ path) {x : QualifiedId}
    (hx : x.sourcePath = path) : x ∈ e.editedAfter ls t before ↔ x ∈ before := by
  cases e with
  | addNode id node =>
    rw [Edit.editedAfter]
    cases hw : node.walk id with
    | error why => exact Iff.rfl
    | ok nodes =>
      rw [Finset.mem_union, List.mem_toFinset]
      refine or_iff_left fun hmem => he ?_
      obtain ⟨n, hn, rfl⟩ := List.mem_map.mp hmem
      exact (sourcePath_of_mem_walk hw n (List.mem_filter.mp hn).1).symm.trans hx
  | removeNode id =>
    rw [Edit.editedAfter, Finset.mem_filter]
    refine and_iff_left_of_imp fun _ => Bool.eq_false_iff.mpr fun hw => he ?_
    exact (QualifiedId.sourcePath_of_isWithin hw).symm.trans hx
  | editEntity id =>
    have hne : x ≠ id := fun heq => he (heq ▸ hx)
    rw [Edit.editedAfter]
    cases t.get? id with
    | none => rw [Finset.mem_insert, or_iff_right hne]
    | some kind =>
      dsimp only
      by_cases hk : ls.isTrackable id kind = true
      · rw [if_pos hk, Finset.mem_insert, or_iff_right hne]
      · rw [if_neg hk]

/-- The run: after all edits the one tree, and after those to the file the other. -/
theorem SourceTree.Alike.foldl_after (es : List Edit) : ∀ {t t' : SourceTree}, Alike path t t' →
    Alike path (es.foldl SourceTree.after t) ((Edit.ofFile path es).foldl SourceTree.after t') := by
  induction es with
  | nil => exact fun h => h
  | cons e es ih =>
    intro t t' h
    unfold Edit.ofFile
    by_cases he : e.sourcePath = path
    · rw [List.filter_cons_of_pos (by simpa using he)]
      exact ih (h.after e)
    · rw [List.filter_cons_of_neg (by simpa using he)]
      exact ih (h.after_other he)

/-- Of the entities of a file the edits to it alone leave edited what all edits leave edited. -/
theorem mem_editedBy_ofFile (es : List Edit) {x : QualifiedId} (hx : x.sourcePath = path) :
    ∀ {t t' : SourceTree} {before before' : Finset QualifiedId}, Alike path t t' →
    (x ∈ before ↔ x ∈ before') →
    (x ∈ editedBy ls t before es ↔ x ∈ editedBy ls t' before' (Edit.ofFile path es)) := by
  induction es with
  | nil => exact fun _ hb => hb
  | cons e es ih =>
    intro t t' before before' h hb
    unfold Edit.ofFile
    by_cases he : e.sourcePath = path
    · rw [List.filter_cons_of_pos (by simpa using he)]
      exact ih (h.after e) (mem_editedAfter_iff h he hb)
    · rw [List.filter_cons_of_neg (by simpa using he)]
      exact ih (h.after_other he) ((mem_editedAfter_other he hx).trans hb)

end Cochange
