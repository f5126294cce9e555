import Cochange.Proofs.Ids.Grammar
import Cochange.Proofs.Tree.Gaps

/-!
# Children of an id

A child is named by putting its name behind the id of its container, and the name and the container
are found again by taking the child apart: `child` and `parent?` with `simpleId` undo each other
(`child_eq_ok_iff`). Which names can be given is told by the names alone (`Admits`).

The same can be done with bare texts, which are put together and then checked (`Cut.child`). The two
ways give the same children and the same errors (`cut_child_of_ok`, `cut_child_of_error`).

Main result: `child_inverses`.
-/

namespace Cochange

namespace QualifiedId

open Text

variable {p c x : QualifiedId} {kind : NodeKind} {name : String}

/-! ## What a child is made of -/

/-- Files and types are the ids without member. -/
theorem kind_eq_file_or_type_iff : p.kind = .file ∨ p.kind = .type ↔ p.member = none := by
  unfold kind
  cases p.member with
  | some m =>
    refine iff_of_false ?_ (Option.some_ne_none m)
    show ¬(m.kind = .file ∨ m.kind = .type)
    unfold Member.kind
    split <;> simp
  | none => cases p.types <;> simp

/-- A type is put behind the types of its container. -/
theorem child_type (p : QualifiedId) (name : String) : p.child .type name =
    match p.member, Token.ofString? name with
    | none, some t => .ok { path := p.path, types := p.types ++ [t], member := none }
    | _, _ => .error (.malformed (p.text ++ ":" ++ name)) := rfl

/-- Functions and variables are both put in the place of the member. -/
theorem child_member (p : QualifiedId) (name : String)
    (hkind : kind = .function ∨ kind = .var) : p.child kind name =
    match p.member, Member.ofString? name with
    | none, some m => .ok { path := p.path, types := p.types, member := some m }
    | _, _ => .error (.malformed (p.text ++ "#" ++ name)) := by
  rcases hkind with rfl | rfl <;> rfl

/-- A type is taken exactly below an id without a member, for a name that is a token. -/
theorem child_type_eq_ok_iff : p.child .type name = .ok c ↔
    p.member = none ∧ ∃ t : Token, t.text = name ∧
      c = { path := p.path, types := p.types ++ [t], member := none } := by
  rw [child_type]
  constructor
  · intro h
    split at h
    next t hm ht =>
      cases h
      exact ⟨hm, t, Token.ofString?_eq_some.mp ht, rfl⟩
    next => cases h
  · rintro ⟨hm, t, ht, rfl⟩
    rw [hm, Token.ofString?_eq_some.mpr ht]

/-- A member is taken exactly below an id without one, for a name that a member can have. -/
theorem child_member_eq_ok_iff (hkind : kind = .function ∨ kind = .var) :
    p.child kind name = .ok c ↔
      p.member = none ∧ ∃ m : Member, m.text = name ∧
        c = { path := p.path, types := p.types, member := some m } := by
  rw [child_member p name hkind]
  constructor
  · intro h
    split at h
    next m hm hmem =>
      cases h
      exact ⟨hm, m, Member.ofString?_eq_some.mp hmem, rfl⟩
    next => cases h
  · rintro ⟨hm, m, hmem, rfl⟩
    rw [hm, Member.ofString?_eq_some.mpr hmem]

/-- The children of an id are those whose parent it is, under the name that is their last part: a
type behind a `:`, and a member of either kind behind a `#`. -/
theorem child_eq_ok_iff : p.child kind name = .ok c ↔
    c.parent? = some p ∧ c.simpleId = name ∧
      (kind = .type ∧ c.member = none ∨
        (kind = .function ∨ kind = .var) ∧ c.member.isSome) := by
  have htype : p.child .type name = .ok c ↔
      c.parent? = some p ∧ c.simpleId = name ∧ c.member = none := by
    rw [child_type_eq_ok_iff]
    constructor
    · rintro ⟨hm, t, ht, rfl⟩
      exact ⟨parent?_eq_some_iff.mpr ⟨hm, rfl, Or.inr ⟨rfl, t, rfl⟩⟩,
        (simpleId_of_types rfl rfl).trans ht, rfl⟩
    · rintro ⟨hparent, hsimple, hcm⟩
      obtain ⟨hm, hpath, ⟨hsome, -⟩ | ⟨-, t, ht⟩⟩ := parent?_eq_some_iff.mp hparent
      · rw [hcm] at hsome
        cases hsome
      · exact ⟨hm, t, (simpleId_of_types hcm ht).symm.trans hsimple, ext_parts hpath.symm ht hcm⟩
  have hmember : kind = .function ∨ kind = .var → (p.child kind name = .ok c ↔
      c.parent? = some p ∧ c.simpleId = name ∧ c.member.isSome) := by
    intro hkind
    rw [child_member_eq_ok_iff hkind]
    constructor
    · rintro ⟨hm, m, hmem, rfl⟩
      exact ⟨parent?_eq_some_iff.mpr ⟨hm, rfl, Or.inl ⟨rfl, rfl⟩⟩,
        (simpleId_of_member rfl).trans hmem, rfl⟩
    · rintro ⟨hparent, hsimple, hsome⟩
      obtain ⟨m, hcm⟩ := Option.isSome_iff_exists.mp hsome
      obtain ⟨hm, hpath, ⟨-, ht⟩ | ⟨hnone, -⟩⟩ := parent?_eq_some_iff.mp hparent
      · exact ⟨hm, m, (simpleId_of_member hcm).symm.trans hsimple,
          ext_parts hpath.symm ht.symm hcm⟩
      · rw [hcm] at hnone
        cases hnone
  cases kind with
  | file => exact iff_of_false (fun h => by cases h) (by simp)
  | type => simpa using htype
  | var => simpa using hmember (Or.inr rfl)
  | function => simpa using hmember (Or.inl rfl)

/-- The parent of a child is the id it was made from. -/
theorem parent?_of_child (h : p.child kind name = .ok c) : c.parent? = some p :=
  (child_eq_ok_iff.mp h).1

/-- A child is told by its parent, its kind and its last part. -/
theorem child_of_parent? (h : x.parent? = some p) : p.child x.kind x.simpleId = .ok x := by
  refine child_eq_ok_iff.mpr ⟨h, rfl, ?_⟩
  obtain ⟨-, -, ⟨hsome, -⟩ | ⟨hnone, t, ht⟩⟩ := parent?_eq_some_iff.mp h
  · refine Or.inr ⟨?_, hsome⟩
    obtain ⟨m, hm⟩ := Option.isSome_iff_exists.mp hsome
    unfold kind
    rw [hm]
    show m.kind = .function ∨ m.kind = .var
    unfold Member.kind
    split
    next => exact Or.inl rfl
    next => exact Or.inr rfl
  · refine Or.inl ⟨?_, hnone⟩
    have hkind := (kind_eq_file_or_type_iff (p := x)).mpr hnone
    refine hkind.resolve_left fun hfile => ?_
    unfold kind at hfile
    rw [hnone, ht] at hfile
    cases hts : p.types <;> simp [hts] at hfile

/-! ## Which names there are -/

/-- Whether a node of this kind may have this name directly in the node `p`: `p` is a file or type,
the node is no file, and the name shows something and holds no separator but for the `:` in that of
a member. -/
structure Admits (p : QualifiedId) (kind : NodeKind) (name : String) : Prop where
  container : p.kind = .file ∨ p.kind = .type
  nested : kind ≠ .file
  shown : trim name.toList ≠ []
  hash : '#' ∉ name.toList
  colon : kind = .type → ':' ∉ name.toList

/-- When a child is made at all. -/
theorem exists_child_iff : (∃ c, p.child kind name = .ok c) ↔ p.Admits kind name := by
  have htype : (∃ c, p.child .type name = .ok c) ↔ p.member = none ∧ IsToken name.toList := by
    simp only [child_type_eq_ok_iff]
    constructor
    · rintro ⟨c, hm, t, rfl, -⟩
      exact ⟨hm, t.ok⟩
    · rintro ⟨hm, h⟩
      exact ⟨_, hm, ⟨name, h⟩, rfl, rfl⟩
  have hmember : kind = .function ∨ kind = .var →
      ((∃ c, p.child kind name = .ok c) ↔ p.member = none ∧ IsMember name.toList) := by
    intro hkind
    simp only [child_member_eq_ok_iff hkind]
    constructor
    · rintro ⟨c, hm, m, rfl, -⟩
      exact ⟨hm, m.ok⟩
    · rintro ⟨hm, h⟩
      exact ⟨_, hm, ⟨name, h⟩, rfl, rfl⟩
  have hadmits : p.Admits kind name ↔ p.member = none ∧ kind ≠ .file ∧
      isBlank name.toList = false ∧ '#' ∉ name.toList ∧ (kind = .type → ':' ∉ name.toList) := by
    rw [← kind_eq_file_or_type_iff, ← trim_ne_nil_iff]
    refine ⟨fun h => ⟨h.container, h.nested, h.shown, h.hash, h.colon⟩, ?_⟩
    rintro ⟨hcontainer, hnested, hshown, hhash, hcolon⟩
    exact ⟨hcontainer, hnested, hshown, hhash, hcolon⟩
  rw [hadmits]
  cases kind with
  | file =>
    refine iff_of_false ?_ (by simp)
    rintro ⟨c, h⟩
    cases h
  | type =>
    rw [htype, IsToken]
    simp [and_comm]
  | var =>
    rw [hmember (Or.inr rfl), IsMember]
    simp
  | function =>
    rw [hmember (Or.inl rfl), IsMember]
    simp

/-! ## Putting texts together -/

namespace Cut

/-- What stands before the name of a node of this kind, if it can stand in another one. -/
def separator? : NodeKind → Option Char
  | .file => none
  | .type => some ':'
  | .var => some '#'
  | .function => some '#'

/-- The text of a child, or the text of the error: the name behind the text of the container, if
this is no member, the name of a type holds no separator, and what comes out is an id. -/
def child (cs : List Char) (kind : NodeKind) (name : List Char) :
    Except (List Char) (List Char) :=
  match separator? kind with
  | none => .error (cs ++ ": a file cannot be nested in another node".toList)
  | some sep =>
    if Cut.kind cs = .function ∨ Cut.kind cs = .var ∨
        (kind = .type ∧ (':' ∈ name ∨ '#' ∈ name)) then
      .error (cs ++ sep :: name)
    else if isValid (cs ++ sep :: name) then .ok (cs ++ sep :: name)
    else .error (cs ++ sep :: name)

end Cut

/-- The text tells whether an id has a member. -/
theorem cut_kind_member_iff :
    (Cut.kind p.text.toList = .function ∨ Cut.kind p.text.toList = .var) ↔ p.member ≠ none := by
  rw [cut_kind, Ne, ← kind_eq_file_or_type_iff]
  cases p.kind <;> simp

/-- A type's name behind a container falls off at the last `:`. -/
theorem ofText_type (hm : p.member = none) {cs : List Char} (hcs : ':' ∉ cs ∧ '#' ∉ cs) :
    Parts.ofText (p.text.toList ++ ':' :: cs) =
      { p.parts with types := p.parts.types ++ [cs] } := by
  have hhash : '#' ∉ p.text.toList ++ ':' :: cs := by
    rw [toList_text_of_no_member hm, List.mem_append, List.mem_cons, not_or, not_or]
    exact ⟨p.hash_not_mem_containerText, by decide, hcs.2⟩
  unfold Parts.ofText
  rw [cutFirst_of_not_mem hhash, toList_text_of_no_member hm]
  simp only [pieces_append, containerText, pieces_containers, pieces_of_not_mem hcs.1, parts, hm]
  rfl

/-- A member's name behind a container falls off at the first `#`. -/
theorem ofText_member (hm : p.member = none) (cs : List Char) :
    Parts.ofText (p.text.toList ++ '#' :: cs) = { p.parts with member := some cs } := by
  unfold Parts.ofText
  rw [toList_text_of_no_member hm, cutFirst_append p.hash_not_mem_containerText]
  simp only [containerText, pieces_containers, parts]

/-- Behind a container separator the text stays valid for a token only. -/
theorem cut_isValid_type (hm : p.member = none) {cs : List Char} (hcs : ':' ∉ cs ∧ '#' ∉ cs) :
    Cut.isValid (p.text.toList ++ ':' :: cs) = true ↔ IsToken cs := by
  rw [cut_isValid_iff, ofText_type hm hcs]
  constructor
  · intro h
    have hlast := h.containers cs (List.mem_cons_of_mem _ (List.mem_append_right _ (by simp)))
    exact ⟨trim_ne_nil_iff.mp hlast.1, hlast.2⟩
  · intro h
    refine ⟨fun t ht => ?_, fun m hmem => p.wellFormed_parts.member m hmem⟩
    rw [← List.cons_append, List.mem_append, List.mem_singleton] at ht
    rcases ht with ht | rfl
    · exact p.wellFormed_parts.containers t ht
    · exact ⟨trim_ne_nil_iff.mpr h.1, h.2⟩

/-- Behind a member separator the text stays valid for the name of a member only. -/
theorem cut_isValid_member (hm : p.member = none) (cs : List Char) :
    Cut.isValid (p.text.toList ++ '#' :: cs) = true ↔ IsMember cs := by
  rw [cut_isValid_iff, ofText_member hm]
  constructor
  · intro h
    exact ⟨trim_ne_nil_iff.mp (h.member cs rfl).1, (h.member cs rfl).2⟩
  · intro h
    refine ⟨p.wellFormed_parts.containers, fun m hmem => ?_⟩
    cases hmem
    exact ⟨trim_ne_nil_iff.mpr h.1, h.2⟩

/-- The text of a child is that of its container, the separator and its name. -/
theorem text_of_child (h : p.child kind name = .ok c) {sep : Char}
    (hsep : Cut.separator? kind = some sep) :
    c.text.toList = p.text.toList ++ sep :: name.toList := by
  obtain ⟨hparent, rfl, ⟨rfl, hcm⟩ | ⟨hkind, hsome⟩⟩ := child_eq_ok_iff.mp h
  · cases hsep
    rcases toList_text_cases hcm with ⟨-, hnone, -⟩ | ⟨y, t, hy, -, hsimple, htext⟩
    · rw [hparent] at hnone
      cases hnone
    · rw [hparent, Option.some.injEq] at hy
      rw [htext, hsimple, hy]
  · have hhash : sep = '#' := by
      rcases hkind with rfl | rfl <;> exact (Option.some.inj hsep).symm
    obtain ⟨m, hm⟩ := Option.isSome_iff_exists.mp hsome
    obtain ⟨y, hy, hcut⟩ := cutFirst_text_of_member hm
    rw [hparent, Option.some.injEq] at hy
    rw [← joinFirst_cutFirst '#' c.text.toList, hcut, hhash, simpleId_of_member hm, hy]
    rfl

/-- Bare texts give the text of each child. -/
theorem cut_child_of_ok (h : p.child kind name = .ok c) :
    Cut.child p.text.toList kind name.toList = .ok c.text.toList := by
  have hvalid : Cut.isValid c.text.toList = true := by
    rw [← isValid_eq_cut]
    exact c.isValid_text
  have hadmits := exists_child_iff.mp ⟨c, h⟩
  have hm := kind_eq_file_or_type_iff.mp hadmits.container
  have hgood : ¬(Cut.kind p.text.toList = .function ∨ Cut.kind p.text.toList = .var ∨
      (kind = .type ∧ (':' ∈ name.toList ∨ '#' ∈ name.toList))) := by
    rw [← or_assoc, cut_kind_member_iff]
    rintro (hmem | ⟨hkind, hcolon | hhash⟩)
    · exact hmem hm
    · exact hadmits.colon hkind hcolon
    · exact hadmits.hash hhash
  unfold Cut.child
  cases hsep : Cut.separator? kind with
  | none =>
    cases kind with
    | file => exact absurd rfl hadmits.nested
    | type => cases hsep
    | var => cases hsep
    | function => cases hsep
  | some sep =>
    rw [text_of_child h hsep] at hvalid ⊢
    dsimp only
    rw [if_neg hgood, if_pos hvalid]

/-- What bare texts let through is a child. -/
theorem exists_child_of_cut {t : List Char}
    (h : Cut.child p.text.toList kind name.toList = .ok t) : ∃ c, p.child kind name = .ok c := by
  unfold Cut.child at h
  split at h
  next => cases h
  next sep hsep =>
    split at h
    next => cases h
    next hgood =>
      split at h
      next hvalid =>
        rw [← or_assoc, cut_kind_member_iff, not_or, not_not] at hgood
        obtain ⟨hm, hcs⟩ := hgood
        have hmember : kind = .function ∨ kind = .var → sep = '#' →
            ∃ c, p.child kind name = .ok c := by
          rintro hkind rfl
          rw [cut_isValid_member hm] at hvalid
          exact ⟨_, (child_member_eq_ok_iff hkind).mpr ⟨hm, ⟨name, hvalid⟩, rfl, rfl⟩⟩
        cases kind with
        | file => cases hsep
        | type =>
          cases hsep
          simp only [true_and, not_or] at hcs
          rw [cut_isValid_type hm hcs] at hvalid
          exact ⟨_, child_type_eq_ok_iff.mpr ⟨hm, ⟨name, hvalid⟩, rfl, rfl⟩⟩
        | var => exact hmember (Or.inr rfl) (Option.some.inj hsep).symm
        | function => exact hmember (Or.inl rfl) (Option.some.inj hsep).symm
      next => cases h

/-- The error of a child that cannot be tells the text that it would have. -/
theorem eq_malformed_of_child {e : IdError} (h : p.child kind name = .error e) {sep : Char}
    (hsep : Cut.separator? kind = some sep) :
    e = .malformed (p.text ++ String.singleton sep ++ name) := by
  have hmember : kind = .function ∨ kind = .var → e = .malformed (p.text ++ "#" ++ name) := by
    intro hkind
    rw [child_member p name hkind] at h
    split at h
    next => cases h
    next => exact (Except.error.inj h).symm
  cases kind with
  | file => cases hsep
  | type =>
    cases hsep
    rw [child_type] at h
    split at h
    next => cases h
    next => exact (Except.error.inj h).symm
  | var => cases hsep; exact hmember (Or.inr rfl)
  | function => cases hsep; exact hmember (Or.inl rfl)

/-- Bare texts give the error of each child that cannot be. -/
theorem cut_child_of_error {e : IdError} (h : p.child kind name = .error e) :
    ∃ t, Cut.child p.text.toList kind name.toList = .error t ∧
      e.message = "invalid qualified id '" ++ String.ofList t ++ "'" := by
  cases hsep : Cut.separator? kind with
  | none =>
    cases kind with
    | file =>
      obtain rfl : e = .nestedFile p := (Except.error.inj h).symm
      refine ⟨_, rfl, ?_⟩
      rw [String.ofList_append, String.ofList_toList, String.ofList_toList]
      unfold IdError.message
      simp only [String.append_assoc]
      rfl
    | type => cases hsep
    | var => cases hsep
    | function => cases hsep
  | some sep =>
    refine ⟨p.text.toList ++ sep :: name.toList, ?_, ?_⟩
    · cases hcut : Cut.child p.text.toList kind name.toList with
      | ok t =>
        obtain ⟨c, hc⟩ := exists_child_of_cut hcut
        rw [h] at hc
        cases hc
      | error t =>
        unfold Cut.child at hcut
        rw [hsep] at hcut
        dsimp only at hcut
        split at hcut
        next => exact hcut.symm
        next =>
          split at hcut
          next => cases hcut
          next => exact hcut.symm
    · have htext : String.ofList (p.text.toList ++ sep :: name.toList) =
          p.text ++ String.singleton sep ++ name := String.toList_inj.mp (by simp)
      rw [eq_malformed_of_child h hsep, htext]
      rfl

/-! ## Putting together and taking apart -/

/-- A child can be named exactly if its container admits the name. It is then an id whose parent is
the container and whose last part is the name, and every id with a parent is got so from its parent,
its kind and its last part. The same children, and the same errors, are got by putting the texts
together and checking what comes out. -/
theorem child_inverses (p : QualifiedId) (kind : NodeKind) (name : String) :
    ((∃ c, p.child kind name = .ok c) ↔ p.Admits kind name) ∧
    (∀ c, p.child kind name = .ok c →
      isValid c.text = true ∧ c.parent? = some p ∧ c.simpleId = name) ∧
    (∀ x : QualifiedId, x.parent? = some p → p.child x.kind x.simpleId = .ok x) ∧
    match p.child kind name with
    | .ok c => Cut.child p.text.toList kind name.toList = .ok c.text.toList
    | .error e => ∃ t, Cut.child p.text.toList kind name.toList = .error t ∧
        e.message = "invalid qualified id '" ++ String.ofList t ++ "'" := by
  refine ⟨exists_child_iff, fun c h => ⟨c.isValid_text, parent?_of_child h, ?_⟩,
    fun x => child_of_parent?, ?_⟩
  · exact (child_eq_ok_iff.mp h).2.1
  · cases h : p.child kind name with
    | ok c => exact cut_child_of_ok h
    | error e => exact cut_child_of_error h

/-- A method of a type, in whose signature there are colons and blanks: it is named, and taken apart
again. A type cannot have such a name. -/
theorem child_inverses_signature :
    (∃ c, SourceTree.sampleType.child .function "f(x : y::T)" = .ok c ∧ isValid c.text = true ∧
      c.parent? = some SourceTree.sampleType ∧ c.simpleId = "f(x : y::T)" ∧
      SourceTree.sampleType.child c.kind c.simpleId = .ok c) ∧
    ¬∃ c, SourceTree.sampleType.child .type "f(x : y::T)" = .ok c := by
  obtain ⟨hiff, hok, hback, -⟩ := child_inverses SourceTree.sampleType .function "f(x : y::T)"
  obtain ⟨c, hc⟩ := hiff.mpr ⟨by decide, by decide, by decide, by decide, by decide⟩
  obtain ⟨hvalid, hparent, hsimple⟩ := hok c hc
  refine ⟨⟨c, hc, hvalid, hparent, hsimple, hback c hparent⟩, fun htype => ?_⟩
  exact ((child_inverses SourceTree.sampleType .type "f(x : y::T)").1.mp htype).colon rfl
    (by decide)

end QualifiedId

end Cochange
