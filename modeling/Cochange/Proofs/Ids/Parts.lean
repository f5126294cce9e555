import Cochange.Proofs.Tree.Nesting
import Mathlib.Data.List.TakeWhile

/-!
# The parts of an id

The texts of ids are put together from parts: a path, types with a `:` before each of them, and at
most one member behind a `#` (`Parts.text`). If the parts hold no separators of their own and none
is blank (`Parts.WellFormed`), then the text tells them (`Parts.eq_of_text_eq`): they are what is
got by cutting it at the first `#` and at every `:` before that.

Ids are the same as well-formed parts (`wellFormed_parts`, `exists_of_wellFormed`).
-/

namespace Cochange

namespace Text

/-- Trimming leaves nothing of a text that is blank, and something of any other. -/
theorem trim_eq_nil_iff {cs : List Char} : trim cs = [] ↔ isBlank cs = true := by
  unfold trim trimStart
  rw [List.reverse_eq_nil_iff, List.dropWhile_eq_nil_iff, isBlank_iff]
  constructor
  · intro h c hc
    rw [← List.takeWhile_append_dropWhile (p := isSpace) (l := cs), List.mem_append] at hc
    rcases hc with hc | hc
    · exact List.mem_takeWhile_imp hc
    · exact h c (List.mem_reverse.mpr hc)
  · intro h c hc
    exact h c ((List.dropWhile_sublist isSpace).subset (List.mem_reverse.mp hc))

/-- The pieces of a text hold nothing that the text does not hold. -/
theorem mem_of_mem_pieces {sep c : Char} {cs t : List Char}
    (ht : t ∈ (pieces sep cs).1 :: (pieces sep cs).2) (hc : c ∈ t) : c ∈ cs := by
  rw [← joinPieces_pieces sep cs, joinPieces, List.mem_append, List.mem_flatMap]
  rcases List.mem_cons.mp ht with rfl | ht
  · exact Or.inl hc
  · exact Or.inr ⟨t, ht, List.mem_cons_of_mem sep hc⟩

end Text

namespace QualifiedId

open Text

/-- What the text of an id is put together from. -/
structure Parts where
  path : List Char
  types : List (List Char)
  member : Option (List Char)

namespace Parts

/-- The path, a `:` and a type as often as there are types, and `#` and the member if there is
one. -/
def text (p : Parts) : List Char :=
  p.path ++ p.types.flatMap (':' :: ·) ++ p.member.elim [] ('#' :: ·)

/-- The parts one behind the other. -/
def tokens (p : Parts) : List (List Char) :=
  p.path :: p.types ++ p.member.toList

/-- A member with a `(` is a function and any other a variable. Without member, types make a type,
and a path alone is a file. -/
def kind (p : Parts) : NodeKind :=
  match p.member with
  | some m => if '(' ∈ m then .function else .var
  | none => if p.types = [] then .file else .type

/-- Trimming leaves something of each part, path and types hold no separator, and a member holds no
`#`. -/
structure WellFormed (p : Parts) : Prop where
  containers : ∀ t ∈ p.path :: p.types, trim t ≠ [] ∧ ':' ∉ t ∧ '#' ∉ t
  member : ∀ m ∈ p.member, trim m ≠ [] ∧ '#' ∉ m

/-- The parts that a text falls into at its separators. -/
def ofText (cs : List Char) : Parts where
  path := (pieces ':' (cutFirst '#' cs).1).1
  types := (pieces ':' (cutFirst '#' cs).1).2
  member := (cutFirst '#' cs).2

theorem text_eq_join (p : Parts) :
    p.text = joinFirst '#' (joinPieces ':' (p.path, p.types), p.member) := rfl

/-- Cutting a text into its parts loses nothing. -/
theorem text_ofText (cs : List Char) : (ofText cs).text = cs := by
  rw [text_eq_join]
  show joinFirst '#' (joinPieces ':' (pieces ':' (cutFirst '#' cs).1), (cutFirst '#' cs).2) = cs
  rw [joinPieces_pieces]
  exact joinFirst_cutFirst '#' cs

variable {p q : Parts}

/-- Parts of the grammar are found again in the text they spell. -/
theorem ofText_text (hp : p.WellFormed) : ofText p.text = p := by
  have hhash : '#' ∉ joinPieces ':' (p.path, p.types) := by
    rw [joinPieces, List.mem_append, List.mem_flatMap]
    rintro (hc | ⟨t, ht, hc⟩)
    · exact (hp.containers p.path List.mem_cons_self).2.2 hc
    · refine (hp.containers t (List.mem_cons_of_mem _ ht)).2.2 ?_
      exact (List.mem_cons.mp hc).resolve_left (by decide)
  have hpieces : pieces ':' (joinPieces ':' (p.path, p.types)) = (p.path, p.types) :=
    pieces_joinPieces (hp.containers p.path List.mem_cons_self).2.1
      fun t ht => (hp.containers t (List.mem_cons_of_mem _ ht)).2.1
  unfold ofText
  rw [text_eq_join, cutFirst_joinFirst hhash, hpieces]

/-- The text tells the parts. -/
theorem eq_of_text_eq (hp : p.WellFormed) (hq : q.WellFormed) (h : p.text = q.text) : p = q := by
  rw [← ofText_text hp, h, ofText_text hq]

end Parts

/-! ## Ids as parts -/

/-- The parts of an id. -/
def parts (x : QualifiedId) : Parts where
  path := x.path.text.toList
  types := x.types.map (·.text.toList)
  member := x.member.map (·.text.toList)

theorem text_parts (x : QualifiedId) : x.parts.text = x.text.toList :=
  x.toList_text_parts.symm

/-- What is not blank is something after trimming. -/
theorem trim_ne_nil_iff {cs : List Char} : trim cs ≠ [] ↔ isBlank cs = false := by
  rw [Ne, trim_eq_nil_iff, Bool.not_eq_true]

/-- The parts of an id are of the grammar. -/
theorem wellFormed_parts (x : QualifiedId) : x.parts.WellFormed where
  containers t ht := by
    rcases List.mem_cons.mp ht with rfl | ht
    · exact ⟨trim_ne_nil_iff.mpr x.path.ok.1, x.path.ok.2⟩
    · obtain ⟨u, -, rfl⟩ := List.mem_map.mp ht
      exact ⟨trim_ne_nil_iff.mpr u.ok.1, u.ok.2⟩
  member m hm := by
    obtain ⟨u, -, rfl⟩ := Option.map_eq_some_iff.mp hm
    exact ⟨trim_ne_nil_iff.mpr u.ok.1, u.ok.2⟩

/-- Pieces that the grammar allows are the texts of tokens. -/
theorem exists_tokens {ts : List (List Char)} (h : ∀ t ∈ ts, trim t ≠ [] ∧ ':' ∉ t ∧ '#' ∉ t) :
    ∃ us : List Token, us.map (·.text.toList) = ts := by
  induction ts with
  | nil => exact ⟨[], rfl⟩
  | cons t ts ih =>
    obtain ⟨ht, hts⟩ := List.forall_mem_cons.mp h
    obtain ⟨us, rfl⟩ := ih hts
    have hok : IsToken (String.ofList t).toList := by
      rw [String.toList_ofList]
      exact ⟨trim_ne_nil_iff.mp ht.1, ht.2⟩
    exact ⟨⟨String.ofList t, hok⟩ :: us, congrArg (· :: _) String.toList_ofList⟩

/-- A last piece that the grammar allows is the text of a member. -/
theorem exists_member {m : Option (List Char)} (h : ∀ cs ∈ m, trim cs ≠ [] ∧ '#' ∉ cs) :
    ∃ u : Option Member, u.map (·.text.toList) = m := by
  cases m with
  | none => exact ⟨none, rfl⟩
  | some cs =>
    have hok : IsMember (String.ofList cs).toList := by
      rw [String.toList_ofList]
      exact ⟨trim_ne_nil_iff.mp (h cs rfl).1, (h cs rfl).2⟩
    exact ⟨some ⟨String.ofList cs, hok⟩, congrArg some String.toList_ofList⟩

/-- Well-formed parts are those of an id. -/
theorem exists_of_wellFormed {p : Parts} (hp : p.WellFormed) : ∃ x : QualifiedId, x.parts = p := by
  obtain ⟨us, hus⟩ := exists_tokens hp.containers
  obtain ⟨m, hm⟩ := exists_member hp.member
  obtain ⟨t, ts, rfl, ht, hts⟩ := List.map_eq_cons_iff.mp hus
  refine ⟨{ path := t, types := ts, member := m }, ?_⟩
  unfold parts
  rw [ht, hts, hm]

/-- The texts of ids are those that are put together from well-formed parts. -/
theorem isValid_iff_exists {s : String} :
    isValid s = true ↔ ∃ p : Parts, p.WellFormed ∧ s.toList = p.text := by
  unfold isValid
  rw [Option.isSome_iff_exists]
  constructor
  · rintro ⟨x, hx⟩
    exact ⟨x.parts, x.wellFormed_parts, by rw [text_parts, text_of_parse? hx]⟩
  · rintro ⟨p, hp, hs⟩
    obtain ⟨x, rfl⟩ := exists_of_wellFormed hp
    exact ⟨x, parse?_eq_some.mpr (String.toList_inj.mp (x.text_parts.symm.trans hs.symm))⟩

end QualifiedId

end Cochange
