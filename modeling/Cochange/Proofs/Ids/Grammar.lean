import Cochange.Proofs.Ids.Parts

/-!
# The grammar of ids

Which texts are ids, and what the parts of a text have to do with what its id answers (`Answers`):
the path of the file, the last part, the kind, and the parents up to the file.

An id keeps its parts. The same questions can be put to the bare text, which is then cut anew for
each of them: at the first `#`, at the last `:`, or at the first of either (`Cut`). All these cuts
find the same parts (`readOff`), and the check of a text by its pieces lets through what can be
read (`isValid_eq_cut`).

Main result: `isValid_iff_parts`.
-/

namespace Cochange

namespace Text

/-- The text before the last separator and the text behind it, if there is one. -/
def cutLast (sep : Char) (cs : List Char) : Option (List Char × List Char) :=
  match cutFirst sep cs.reverse with
  | (behind, some before) => some (before.reverse, behind.reverse)
  | (_, none) => none

theorem cutLast_of_not_mem {sep : Char} {cs : List Char} (h : sep ∉ cs) : cutLast sep cs = none := by
  unfold cutLast
  rw [cutFirst_of_not_mem fun hc => h (List.mem_reverse.mp hc)]

/-- Cutting at the last separator finds the piece that holds none. -/
theorem cutLast_append {sep : Char} {bs : List Char} (h : sep ∉ bs) (as : List Char) :
    cutLast sep (as ++ sep :: bs) = some (as, bs) := by
  have hreverse : (as ++ sep :: bs).reverse = bs.reverse ++ sep :: as.reverse := by simp
  unfold cutLast
  rw [hreverse, cutFirst_append fun hc => h (List.mem_reverse.mp hc)]
  simp

theorem joinPieces_concat (sep : Char) (as : List Char) (ts : List (List Char)) (t : List Char) :
    joinPieces sep (as, ts ++ [t]) = joinPieces sep (as, ts) ++ sep :: t := by
  simp [joinPieces]

end Text

namespace QualifiedId

open Text

/-! ## Cutting the text -/

namespace Cut

/-- Whether a text is an id, by its pieces. -/
def isValid (cs : List Char) : Bool :=
  let (containers, member) := cutFirst '#' cs
  let (path, types) := pieces ':' containers
  (match member with
    | none => true
    | some m => !(trim m).isEmpty && !m.contains '#') &&
  (path :: types).all fun t => !(trim t).isEmpty

/-- The text before the first separator. -/
def sourcePath (cs : List Char) : List Char :=
  cs.takeWhile isPlain

/-- The text behind the first `#`, or else behind the last `:`, or else all of it. -/
def simpleId (cs : List Char) : List Char :=
  match (cutFirst '#' cs).2, cutLast ':' cs with
  | some m, _ => m
  | none, some (_, t) => t
  | none, none => cs

/-- The text before the first `#`, or else before the last `:`. -/
def parent? (cs : List Char) : Option (List Char) :=
  match cutFirst '#' cs with
  | (containers, some _) => some containers
  | (_, none) => (cutLast ':' cs).map (·.1)

/-- The kind that the separators in a text tell. -/
def kind (cs : List Char) : NodeKind :=
  match (cutFirst '#' cs).2 with
  | some m => if '(' ∈ m then .function else .var
  | none => if ':' ∈ cs then .type else .file

end Cut

/-- A text passes the check if the parts it falls into are well-formed. -/
theorem cut_isValid_iff (cs : List Char) :
    Cut.isValid cs = true ↔ (Parts.ofText cs).WellFormed := by
  have hcontainers : ∀ t ∈ (pieces ':' (cutFirst '#' cs).1).1 :: (pieces ':' (cutFirst '#' cs).1).2,
      ':' ∉ t ∧ '#' ∉ t := by
    intro t ht
    refine ⟨?_, fun hc => not_mem_cutFirst '#' cs (mem_of_mem_pieces ht hc)⟩
    rcases List.mem_cons.mp ht with rfl | ht
    · exact (not_mem_pieces _).1
    · exact (not_mem_pieces _).2 t ht
  have hshown : ∀ t : List Char, (!(trim t).isEmpty) = true ↔ trim t ≠ [] := by simp
  unfold Cut.isValid
  simp only [Bool.and_eq_true, List.all_eq_true, hshown]
  constructor
  · rintro ⟨hm, ht⟩
    refine ⟨fun t hmem => ⟨ht t hmem, hcontainers t hmem⟩, fun m hmem => ?_⟩
    have hmem : (cutFirst '#' cs).2 = some m := hmem
    rw [hmem] at hm
    simpa using hm
  · intro h
    refine ⟨?_, fun t hmem => (h.containers t hmem).1⟩
    split
    next => rfl
    next m hm => simpa using h.member m hm

/-- Cutting a text tells whether it is an id. -/
theorem isValid_eq_cut (s : String) : isValid s = Cut.isValid s.toList := by
  rw [Bool.eq_iff_iff, isValid_iff_exists, cut_isValid_iff]
  constructor
  · rintro ⟨p, hp, hs⟩
    rw [hs, Parts.ofText_text hp]
    exact hp
  · exact fun h => ⟨Parts.ofText s.toList, h, (Parts.text_ofText s.toList).symm⟩

variable {x : QualifiedId}

theorem toList_text_of_no_member (h : x.member = none) : x.text.toList = x.containerText := by
  rw [toList_text_parts, h]
  exact List.append_nil _

theorem parent?_eq_none_iff : x.parent? = none ↔ x.member = none ∧ x.types = [] := by
  refine ⟨eq_nil_of_parent?_eq_none, ?_⟩
  rintro ⟨hm, ht⟩
  unfold parent?
  split
  next m hs =>
    rw [hm] at hs
    cases hs
  next => rfl
  next t ts _ hs =>
    rw [ht] at hs
    cases hs

theorem simpleId_of_member {m : Member} (h : x.member = some m) : x.simpleId = m.text := by
  unfold simpleId
  rw [h]

theorem simpleId_of_path (h : x.member = none) (ht : x.types = []) :
    x.simpleId = x.path.text := by
  unfold simpleId
  rw [h, ht]
  rfl

theorem simpleId_of_types {ts : List Token} {t : Token} (h : x.member = none)
    (ht : x.types = ts ++ [t]) : x.simpleId = t.text := by
  unfold simpleId
  rw [h, ht, List.getLast?_concat]
  rfl

/-- An id without member is a path, or goes on behind its parent with a `:` and its last part. -/
theorem toList_text_cases (h : x.member = none) :
    (x.types = [] ∧ x.parent? = none ∧ x.text.toList = x.path.text.toList) ∨
    ∃ y t, x.parent? = some y ∧ x.types = y.types ++ [t] ∧ x.simpleId = t.text ∧
      x.text.toList = y.text.toList ++ ':' :: t.text.toList := by
  cases hp : x.parent? with
  | none =>
    obtain ⟨-, ht⟩ := parent?_eq_none_iff.mp hp
    refine Or.inl ⟨ht, rfl, ?_⟩
    rw [toList_text_of_no_member h, containerText, ht]
    exact List.append_nil _
  | some y =>
    obtain ⟨hym, hpath, ⟨hsome, -⟩ | ⟨-, t, ht⟩⟩ := parent?_eq_some_iff.mp hp
    · rw [h] at hsome
      cases hsome
    · refine Or.inr ⟨y, t, rfl, ht, simpleId_of_types h ht, ?_⟩
      rw [toList_text_of_no_member h, toList_text_of_no_member hym, containerText, containerText,
        ht, hpath, List.map_append, ← joinPieces_concat]
      rfl

/-- The last `:` of an id without member stands between its parent and its last part. -/
theorem cutLast_text (h : x.member = none) :
    cutLast ':' x.text.toList = x.parent?.map fun y => (y.text.toList, x.simpleId.toList) := by
  rcases toList_text_cases h with ⟨-, hparent, htext⟩ | ⟨y, t, hparent, -, hsimple, htext⟩
  · rw [hparent, htext]
    exact cutLast_of_not_mem x.path.ok.2.1
  · rw [hparent, htext, hsimple]
    exact cutLast_append t.ok.2.1 y.text.toList

/-- The first `#` of a member's id stands between its parent and its name. -/
theorem cutFirst_text_of_member {m : Member} (h : x.member = some m) :
    ∃ y, x.parent? = some y ∧ cutFirst '#' x.text.toList = (y.text.toList, some m.text.toList) := by
  cases hp : x.parent? with
  | none =>
    have hnone := (parent?_eq_none_iff.mp hp).1
    rw [h] at hnone
    cases hnone
  | some y =>
    obtain ⟨hym, hpath, ⟨-, ht⟩ | ⟨hnone, -⟩⟩ := parent?_eq_some_iff.mp hp
    · refine ⟨y, rfl, ?_⟩
      rw [cutFirst_text, h, toList_text_of_no_member hym, containerText, hpath, ht]
      rfl
    · rw [h] at hnone
      cases hnone

theorem cutFirst_text_of_no_member (h : x.member = none) :
    (cutFirst '#' x.text.toList).2 = none := by
  rw [cutFirst_text, h]
  rfl

/-- The path, cut from the text. -/
theorem cut_sourcePath (x : QualifiedId) : Cut.sourcePath x.text.toList = x.sourcePath.toList := by
  rw [toList_text_eq]
  exact takeWhile_isPlain_append x.path.ok.2 x.startsApart_behindPath

/-- The simple name, cut from the text. -/
theorem cut_simpleId (x : QualifiedId) : Cut.simpleId x.text.toList = x.simpleId.toList := by
  unfold Cut.simpleId
  cases hm : x.member with
  | some m =>
    obtain ⟨y, -, hcut⟩ := cutFirst_text_of_member hm
    rw [hcut, simpleId_of_member hm]
  | none =>
    rw [cutFirst_text_of_no_member hm, cutLast_text hm]
    rcases toList_text_cases hm with ⟨ht, hparent, htext⟩ | ⟨y, t, hparent, -⟩
    · rw [hparent, htext, simpleId_of_path hm ht]
      rfl
    · rw [hparent]
      rfl

/-- The parent, cut from the text. -/
theorem cut_parent? (x : QualifiedId) :
    Cut.parent? x.text.toList = x.parent?.map fun y => y.text.toList := by
  unfold Cut.parent?
  cases hm : x.member with
  | some m =>
    obtain ⟨y, hparent, hcut⟩ := cutFirst_text_of_member hm
    rw [hcut, hparent]
    rfl
  | none =>
    rw [← Prod.eta (cutFirst '#' x.text.toList), cutFirst_text_of_no_member hm, cutLast_text hm]
    cases x.parent? <;> rfl

/-- The kind, told by the text. -/
theorem cut_kind (x : QualifiedId) : Cut.kind x.text.toList = x.kind := by
  unfold Cut.kind kind
  cases hm : x.member with
  | some m =>
    obtain ⟨y, -, hcut⟩ := cutFirst_text_of_member hm
    rw [hcut]
    rfl
  | none =>
    rw [cutFirst_text_of_no_member hm]
    rcases toList_text_cases hm with ⟨ht, -, htext⟩ | ⟨y, t, -, ht, -, htext⟩
    · rw [htext, ht]
      exact if_neg x.path.ok.2.1
    · have hcolon : ':' ∈ x.text.toList := by
        rw [htext]
        exact List.mem_append_right _ List.mem_cons_self
      rw [ht]
      dsimp only
      rw [if_pos hcolon]
      cases y.types <;> rfl

/-! ## What the parts tell -/

/-- The last id on the way out is that of the file. -/
theorem getLast?_ancestors (x : QualifiedId) :
    ∃ y, (x :: x.ancestors).getLast? = some y ∧ y.text = x.sourcePath := by
  induction x using ancestors.induct with
  | case1 x hnone =>
    obtain ⟨hm, ht⟩ := parent?_eq_none_iff.mp hnone
    refine ⟨x, by rw [ancestors_of_parent?_eq_none hnone]; rfl, String.toList_inj.mp ?_⟩
    rw [toList_text_of_no_member hm, containerText, ht]
    exact List.append_nil _
  | case2 x y hy _ ih =>
    rw [ancestors_of_parent? hy, List.getLast?_cons_cons, ← sourcePath_of_parent? hy]
    exact ih

/-- What an id answers, told by the parts `p` of its text. -/
structure Answers (x : QualifiedId) (p : Parts) : Prop where
  text : x.text.toList = p.text
  sourcePath : x.sourcePath.toList = p.path
  simpleId : p.tokens.getLast? = some x.simpleId.toList
  kind : x.kind = p.kind
  parent_none : x.parent? = none ↔ p.text = p.path
  parent : ∀ y, x.parent? = some y → isValid y.text = true ∧
    ∃ q : Parts, q.WellFormed ∧ q.member = none ∧ q.tokens = p.tokens.dropLast ∧
      y.text.toList = q.text
  ancestors : ∀ y ∈ x.ancestors, isValid y.text = true
  file : ∃ y, (x :: x.ancestors).getLast? = some y ∧ y.text = x.sourcePath

/-- What an id answers is what the cuts of its text find. -/
structure ReadOff (x : QualifiedId) : Prop where
  sourcePath : Cut.sourcePath x.text.toList = x.sourcePath.toList
  simpleId : Cut.simpleId x.text.toList = x.simpleId.toList
  kind : Cut.kind x.text.toList = x.kind
  parent : Cut.parent? x.text.toList = x.parent?.map fun y => y.text.toList

/-- The text of an id is valid. -/
theorem isValid_text (x : QualifiedId) : isValid x.text = true := by
  unfold isValid
  rw [parse?_text]
  rfl

/-- The parent lacks the last token. -/
theorem tokens_parent {y : QualifiedId} (h : x.parent? = some y) :
    y.parts.tokens = x.parts.tokens.dropLast := by
  obtain ⟨hym, hpath, ⟨hsome, htypes⟩ | ⟨hnone, t, htypes⟩⟩ := parent?_eq_some_iff.mp h
  · obtain ⟨m, hm⟩ := Option.isSome_iff_exists.mp hsome
    unfold Parts.tokens parts
    rw [hym, hm, hpath, htypes]
    exact (List.append_nil _).trans List.dropLast_concat.symm
  · unfold Parts.tokens parts
    rw [hym, hnone, hpath, htypes, List.map_append, ← List.cons_append]
    show _ ++ [] = (_ ++ [t.text.toList] ++ []).dropLast
    rw [List.append_nil, List.append_nil, List.dropLast_concat]

/-- The simple name is the last token. -/
theorem getLast?_tokens (x : QualifiedId) :
    x.parts.tokens.getLast? = some x.simpleId.toList := by
  unfold Parts.tokens parts
  cases hm : x.member with
  | some m =>
    rw [simpleId_of_member hm]
    exact List.getLast?_concat
  | none =>
    rcases List.eq_nil_or_concat' x.types with ht | ⟨ts, t, ht⟩
    · rw [simpleId_of_path hm ht, ht]
      rfl
    · rw [simpleId_of_types hm ht, ht, List.map_append, ← List.cons_append]
      show (_ ++ [t.text.toList] ++ []).getLast? = some t.text.toList
      rw [List.append_nil, List.getLast?_concat]

theorem kind_parts (x : QualifiedId) : x.kind = x.parts.kind := by
  unfold kind Parts.kind parts
  cases x.member with
  | some m => rfl
  | none => cases x.types <;> rfl

/-- A file alone has no more to its text than its path. -/
theorem parent?_eq_none_iff_text : x.parent? = none ↔ x.parts.text = x.parts.path := by
  rw [parent?_eq_none_iff, text_parts, toList_text_eq]
  show _ ↔ x.path.text.toList ++ x.behindPath = x.path.text.toList
  rw [List.append_right_eq_self]
  unfold behindPath behind
  cases x.types with
  | nil => cases x.member <;> simp
  | cons t ts => simp

/-- An id answers by its parts. -/
theorem answers_parts (x : QualifiedId) : x.Answers x.parts where
  text := x.text_parts.symm
  sourcePath := rfl
  simpleId := x.getLast?_tokens
  kind := x.kind_parts
  parent_none := parent?_eq_none_iff_text
  parent y hy := by
    refine ⟨y.isValid_text, y.parts, y.wellFormed_parts, ?_, tokens_parent hy, y.text_parts.symm⟩
    show y.member.map _ = none
    rw [(parent?_eq_some_iff.mp hy).1]
    rfl
  ancestors y _ := y.isValid_text
  file := x.getLast?_ancestors

/-- What an id answers can be read off its text. -/
theorem readOff (x : QualifiedId) : x.ReadOff where
  sourcePath := x.cut_sourcePath
  simpleId := x.cut_simpleId
  kind := x.cut_kind
  parent := x.cut_parent?

/-- A text is an id exactly if it is put together from well-formed parts, and so says the check by
its pieces. The parts are unique. What the id answers is told by them, and it is also what is found
by cutting the text. -/
theorem isValid_iff_parts (s : String) :
    (isValid s = true ↔ ∃ p : Parts, p.WellFormed ∧ s.toList = p.text) ∧
    isValid s = Cut.isValid s.toList ∧
    ∀ p : Parts, p.WellFormed → s.toList = p.text →
      (∀ q : Parts, q.WellFormed → s.toList = q.text → q = p) ∧
      ∃ x, parse? s = some x ∧ x.Answers p ∧ x.ReadOff := by
  refine ⟨isValid_iff_exists, isValid_eq_cut s, fun p hp hs => ⟨fun q hq hs' => ?_, ?_⟩⟩
  · exact Parts.eq_of_text_eq hq hp (hs'.symm.trans hs)
  · obtain ⟨x, rfl⟩ := exists_of_wellFormed hp
    have htext : x.text = s := String.toList_inj.mp (x.text_parts.symm.trans hs.symm)
    exact ⟨x, parse?_eq_some.mpr htext, x.answers_parts, x.readOff⟩

/-- A method in whose signature there are colons. -/
def methodParts : Parts :=
  ⟨"a.rs".toList, ["A".toList], some "f(x::y)".toList⟩

/-- The grammar at a method whose signature holds container separators. -/
theorem isValid_iff_parts_method :
    isValid "a.rs:A#f(x::y)" = true ∧
    ∃ x y, parse? "a.rs:A#f(x::y)" = some x ∧ x.sourcePath = "a.rs" ∧ x.simpleId = "f(x::y)" ∧
      x.kind = .function ∧ x.parent? = some y ∧ isValid y.text = true := by
  obtain ⟨hvalid, -, hparts⟩ := isValid_iff_parts "a.rs:A#f(x::y)"
  have hp : methodParts.WellFormed := ⟨by decide, by decide⟩
  have hs : "a.rs:A#f(x::y)".toList = methodParts.text := by decide
  obtain ⟨-, x, hx, h, -⟩ := hparts methodParts hp hs
  cases hy : x.parent? with
  | none =>
    have hpath := h.parent_none.mp hy
    exact absurd hpath (by decide)
  | some y =>
    exact ⟨hvalid.mpr ⟨methodParts, hp, hs⟩, x, y, hx, String.toList_inj.mp h.sourcePath,
      String.toList_inj.mp (Option.some.inj h.simpleId).symm, h.kind, hy, (h.parent y hy).1⟩

end QualifiedId

end Cochange
