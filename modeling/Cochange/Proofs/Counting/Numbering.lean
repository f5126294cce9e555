import Cochange.Proofs.Counting.Leaving
import Mathlib.Logic.Equiv.Basic

/-!
# The numbers of the ids that were met

An id is met when the count takes it for edited. From then on it has a number, and nothing ever
takes this back: forgetting an entity leaves its handle, and a revision that fails leaves those of
its first edits. So an interner is told by the ids that were met, in the order in which they were:

* `Numbers`: it lists each of them once, in the order of their first meetings, and its list and its
  index are inverse bijections.
* `interner_run`, `interner_underWay`: behind any revisions, and in the middle of one, the interner
  is the empty one with the ids met so far interned one after the other.

Ids that are met later are put behind those met before (`isPrefix_metUnderWay`), so no handle ever
moves (`get?_underWay_of_earlier`).
-/

namespace Cochange

namespace Interner

variable {t : Interner} {id x : QualifiedId} {met ids : List QualifiedId}

/-! ## Interning some ids -/

/-- The interner after some ids are interned, one after the other. -/
def internAll (t : Interner) (ids : List QualifiedId) : Interner :=
  ids.foldl (fun t id => (t.intern id).2) t

/-- Interning a list is interning its parts one after the other. -/
theorem internAll_append (t : Interner) (ids more : List QualifiedId) :
    t.internAll (ids ++ more) = (t.internAll ids).internAll more :=
  List.foldl_append

/-- An id with a handle keeps it. -/
theorem get?_internAll {h : Handle} (hx : t.get? x = some h) (ids : List QualifiedId) :
    (t.internAll ids).get? x = some h := by
  induction ids generalizing t with
  | nil => exact hx
  | cons id ids ih =>
    refine ih ?_
    rw [get?_intern]
    split
    next he => rw [← he, intern_of_get? hx]
    next => exact hx

/-! ## The list of ids -/

/-- The known handles are the numbers below the size. -/
theorem isSome_resolve? {h : Nat} : (t.resolve? h).isSome = true ↔ h < t.size := by
  show (t.ids[h]?).isSome = true ↔ h < t.ids.size
  simp

/-- The listed ids are those with a handle. -/
theorem Valid.mem_ids (ht : t.Valid) : x ∈ t.ids.toList ↔ ∃ h, t.get? x = some h := by
  rw [List.mem_iff_getElem?]
  refine exists_congr fun h => ?_
  rw [ht x h, Array.getElem?_toList]
  rfl

/-- A handle that was given is below the size. -/
theorem Valid.lt_size (ht : t.Valid) {h : Nat} (hx : t.get? x = some h) : h < t.size := by
  rw [← isSome_resolve?, (ht x h).mp hx]
  rfl

/-- Interning takes no id away. -/
theorem size_le_internAll (t : Interner) (ids : List QualifiedId) :
    t.size ≤ (t.internAll ids).size := by
  induction ids generalizing t with
  | nil => exact Nat.le_refl _
  | cons id ids ih =>
    refine Nat.le_trans ?_ (ih (t.intern id).2)
    cases hid : t.get? id with
    | some h => rw [intern_of_get? hid]
    | none =>
      rw [intern_of_get?_eq_none hid]
      show t.ids.size ≤ (t.ids.push id).size
      rw [Array.size_push]
      exact Nat.le_succ _

/-- A new id is listed behind the others. -/
theorem ids_intern (ht : t.Valid) (hmet : t.ids.toList = met.eraseDups) (id : QualifiedId) :
    (t.intern id).2.ids.toList = (met ++ [id]).eraseDups := by
  have hknown : id ∈ met ↔ ∃ h, t.get? id = some h := by
    rw [← ht.mem_ids, hmet, List.mem_eraseDups]
  rw [List.eraseDups_append, ← hmet]
  cases hid : t.get? id with
  | some h =>
    have hmem : id ∈ met := hknown.mpr ⟨h, hid⟩
    rw [intern_of_get? hid]
    simp [List.removeAll, hmem]
  | none =>
    have hnot : id ∉ met := fun hmem => by
      obtain ⟨h, hh⟩ := hknown.mp hmem
      rw [hid] at hh
      cases hh
    rw [intern_of_get?_eq_none hid]
    simp [List.removeAll, hnot, List.eraseDups_cons]

/-- The ids are listed in the order in which they were met first. -/
theorem ids_internAll (ht : t.Valid) (hmet : t.ids.toList = met.eraseDups)
    (ids : List QualifiedId) : (t.internAll ids).ids.toList = (met ++ ids).eraseDups := by
  induction ids generalizing t met with
  | nil =>
    rw [List.append_nil]
    exact hmet
  | cons id ids ih =>
    rw [List.append_cons]
    exact ih (ht.intern id) (ids_intern ht hmet id)

/-- What an interner is to the ids that were met. -/
structure Numbers (t : Interner) (met : List QualifiedId) : Prop where
  /-- Each id is listed once, in the order in which they were met first. -/
  listed : t.ids.toList = met.eraseDups
  /-- Index and list are inverse bijections between the ids that were met and the numbers below
  the length of the list. -/
  bijection : ∃ number : {x // x ∈ met} ≃ Fin t.size,
    (∀ x, t.get? x.1 = some (number x).1) ∧ ∀ h, t.resolve? h.1 = some (number.symm h).1
  /-- No other id has a number. -/
  unmet : ∀ x, x ∉ met → t.get? x = none
  /-- No other number has an id. -/
  beyond : ∀ h : Nat, t.size ≤ h → t.resolve? h = none

/-- The ids with a handle and the numbers below the length of the list: the index leads from the
ones to the others, and the list back. -/
def Valid.numbering (ht : t.Valid) : {x // (t.get? x).isSome = true} ≃ Fin t.size where
  toFun x := ⟨(t.get? x.1).get x.2, ht.lt_size (Option.some_get x.2).symm⟩
  invFun h :=
    ⟨(t.resolve? h.1).get (isSome_resolve?.mpr h.2), by
      rw [(ht _ h.1).mpr (Option.some_get _).symm]
      rfl⟩
  left_inv x := Subtype.ext <| Option.get_of_eq_some _ <|
    (ht x.1 _).mp (Option.some_get x.2).symm
  right_inv h := Fin.ext <| Option.get_of_eq_some _ <| (ht _ h.1).mpr (Option.some_get _).symm

/-- The ids in the order in which they are first met are what handles number. -/
theorem Valid.numbers (ht : t.Valid) (hmet : t.ids.toList = met.eraseDups) : t.Numbers met := by
  have hknown : ∀ x, x ∈ met ↔ (t.get? x).isSome = true := by
    intro x
    rw [Option.isSome_iff_exists, ← ht.mem_ids, hmet, List.mem_eraseDups]
  refine ⟨hmet, ⟨(Equiv.subtypeEquivRight hknown).trans ht.numbering, ?_, ?_⟩, ?_, ?_⟩
  · exact fun x => (Option.some_get ((hknown x.1).mp x.2)).symm
  · exact fun h => (Option.some_get (isSome_resolve?.mpr h.2)).symm
  · intro x hx
    rw [hknown, Bool.not_eq_true, Option.isSome_eq_false_iff, Option.isNone_iff_eq_none] at hx
    exact hx
  · exact fun h hh => Array.getElem?_eq_none hh

end Interner

namespace Edit

/-- The ids that an edit makes the count take for edited, as it comes to them. -/
def meets (ls : Languages) (t : SourceTree) : Edit → List QualifiedId
  | addNode id node =>
    match node.walk id with
    | .error _ => []
    | .ok nodes => tracked ls nodes
  | removeNode _ => []
  | editEntity id =>
    match t.get? id with
    | some kind => if ls.isTrackable id kind then [id] else []
    | none => [id]

end Edit

namespace ChangeCounter

variable {s s' : ChangeCounter × EditedSet}

/-! ## The ids that are met -/

/-- The ids that are met by some edits, up to the first that fails. -/
def metBy (s : ChangeCounter × EditedSet) : List Edit → List QualifiedId
  | [] => []
  | e :: es =>
    match visit s e with
    | .error _ => []
    | .ok s' => e.meets s.1.languages s.1.tree ++ metBy s' es

/-- The ids that are met in some revisions, failed ones included. -/
def met (c : ChangeCounter) : List Revision → List QualifiedId
  | [] => []
  | r :: rs => metBy (c, ∅) r.edits ++ (c.process r).1.met rs

/-- The ids that are met in some revisions and by some edits of the next one. -/
def metUnderWay (ls : Languages) (limit : Nat) (rs : List Revision) (es : List Edit) :
    List QualifiedId :=
  (start ls limit).met rs ++ metBy ((start ls limit).run rs, ∅) es

/-- Taking up entities interns them. -/
theorem interner_foldl_edit (ids : List QualifiedId) (s : ChangeCounter × EditedSet) :
    (ids.foldl edit s).1.interner = s.1.interner.internAll ids := by
  induction ids generalizing s with
  | nil => rfl
  | cons id ids ih => exact ih (edit s id)

/-- The step: an edit interns the ids that it meets, and no other. -/
theorem interner_visit {e : Edit} (hv : visit s e = .ok s') :
    s'.1.interner = s.1.interner.internAll (e.meets s.1.languages s.1.tree) := by
  cases e with
  | addNode id node =>
    rw [visit_addNode] at hv
    unfold Edit.meets
    split at hv
    next => cases hv
    next nodes hw =>
      cases hv
      simp only [hw]
      exact interner_foldl_edit _ _
  | removeNode id =>
    cases hv
    exact foldl_forget_interner _ _
  | editEntity id =>
    rw [visit] at hv
    simp only [Edit.meets]
    cases hkind : s.1.tree.get? id with
    | none =>
      rw [hkind] at hv
      cases hv
      rfl
    | some kind =>
      rw [hkind] at hv
      cases hv
      dsimp only
      split <;> rfl

/-- The edits of a revision intern what they meet, one after the other. -/
theorem interner_visitAll (es : List Edit) (s : ChangeCounter × EditedSet) :
    (visitAll s es).1.1.interner = s.1.interner.internAll (metBy s es) := by
  induction es generalizing s with
  | nil => rfl
  | cons e es ih =>
    rw [visitAll, metBy]
    cases hv : visit s e with
    | error why => rfl
    | ok s' =>
      dsimp only
      rw [ih, interner_visit hv, ← Interner.internAll_append]

/-- A revision that fails has interned what its first edits meet. -/
theorem interner_process (c : ChangeCounter) (r : Revision) :
    (c.process r).1.interner = c.interner.internAll (metBy (c, ∅) r.edits) := by
  have hv := interner_visitAll r.edits (c, ∅)
  unfold process
  split
  next c' edited why heq =>
    rw [heq] at hv
    exact hv
  next c' edited heq =>
    rw [heq] at hv
    rw [count_interner]
    exact hv

/-- The run: what is interned behind some revisions is what was met in them. -/
theorem interner_run (rs : List Revision) (c : ChangeCounter) :
    (c.run rs).interner = c.interner.internAll (c.met rs) := by
  induction rs generalizing c with
  | nil => rfl
  | cons r rs ih =>
    show ((c.process r).1.run rs).interner = _
    rw [ih, interner_process, ← Interner.internAll_append]
    rfl

/-! No id is taken back, so there are never fewer. -/

theorem size_le_foldl_edit (ids : List QualifiedId) (s : ChangeCounter × EditedSet) :
    s.1.interner.size ≤ (ids.foldl edit s).1.interner.size := by
  rw [interner_foldl_edit]
  exact Interner.size_le_internAll _ ids

theorem size_le_visitAll (es : List Edit) (s : ChangeCounter × EditedSet) :
    s.1.interner.size ≤ (visitAll s es).1.1.interner.size := by
  rw [interner_visitAll]
  exact Interner.size_le_internAll _ _

/-- A history takes no id away. -/
theorem size_le_run (rs : List Revision) (c : ChangeCounter) :
    c.interner.size ≤ (c.run rs).interner.size := by
  rw [interner_run]
  exact Interner.size_le_internAll _ _

/-- At any point the interner has met what the history up to there meets, and nothing else. -/
theorem interner_underWay (ls : Languages) (limit : Nat) (rs : List Revision) (es : List Edit) :
    (underWay ls limit rs es).1.interner = Interner.empty.internAll (metUnderWay ls limit rs es) := by
  unfold underWay metUnderWay
  rw [interner_visitAll, interner_run, Interner.internAll_append]
  rfl

/-- In every state of the count, list and index number the ids met so far. -/
theorem numbers_underWay (ls : Languages) (limit : Nat) (rs : List Revision) (es : List Edit) :
    (underWay ls limit rs es).1.interner.Numbers (metUnderWay ls limit rs es) := by
  have hnone : Interner.empty.ids.toList = List.eraseDups [] := rfl
  refine (sound_underWay ls limit rs es).interner.numbers ?_
  rw [interner_underWay]
  exact Interner.ids_internAll Interner.valid_empty hnone _

/-! ## Earlier and later -/

/-- Whether some revisions and some edits of the next one stand at the beginning of others. -/
def IsEarlier (rs : List Revision) (es : List Edit) (rs' : List Revision) (es' : List Edit) : Prop :=
  (rs' = rs ∧ es <+: es') ∨ ∃ r rest, rs' = rs ++ r :: rest ∧ es <+: r.edits

/-- More edits meet what fewer edits meet, and then more. -/
theorem isPrefix_metBy {es es' : List Edit} (h : es <+: es') (s : ChangeCounter × EditedSet) :
    metBy s es <+: metBy s es' := by
  induction es generalizing s es' with
  | nil => exact List.nil_prefix
  | cons e es ih =>
    obtain ⟨more, rfl⟩ := h
    rw [List.cons_append, metBy, metBy]
    split
    next => exact List.prefix_rfl
    next s' _ => exact (List.prefix_append_right_inj _).mpr (ih (List.prefix_append es more) s')

/-- What a longer history meets comes behind what a shorter one meets. -/
theorem met_append (rs rest : List Revision) (c : ChangeCounter) :
    c.met (rs ++ rest) = c.met rs ++ (c.run rs).met rest := by
  induction rs generalizing c with
  | nil => rfl
  | cons r rs ih =>
    rw [List.cons_append, met, met, ih, List.append_assoc]
    rfl

variable {ls : Languages} {limit : Nat} {rs rs' : List Revision} {es es' : List Edit}

/-- What is met later comes behind what was met before. -/
theorem isPrefix_metUnderWay (h : IsEarlier rs es rs' es') :
    metUnderWay ls limit rs es <+: metUnderWay ls limit rs' es' := by
  unfold metUnderWay
  rcases h with ⟨rfl, hes⟩ | ⟨r, rest, rfl, hes⟩
  · exact (List.prefix_append_right_inj _).mpr (isPrefix_metBy hes _)
  · rw [met_append, met, List.append_assoc, List.append_assoc]
    exact (List.prefix_append_right_inj _).mpr
      ((isPrefix_metBy hes _).trans (List.prefix_append _ _))

/-- Handles never move. -/
theorem get?_underWay_of_earlier (h : IsEarlier rs es rs' es') {x : QualifiedId} {k : Handle}
    (hx : (underWay ls limit rs es).1.interner.get? x = some k) :
    (underWay ls limit rs' es').1.interner.get? x = some k := by
  obtain ⟨more, hmore⟩ : metUnderWay ls limit rs es <+: metUnderWay ls limit rs' es' :=
    isPrefix_metUnderWay h
  rw [interner_underWay] at hx ⊢
  rw [← hmore, Interner.internAll_append]
  exact Interner.get?_internAll hx more

end ChangeCounter

end Cochange
