import Cochange.Proofs.Tree.Ids

/-!
# Nesting by parents and nesting by texts

The ids around an id are got by dropping parts from its end (`isNestedIn_iff`). Whether one id
is within another one is asked of their texts instead. The two agree but for members: their names
may hold a `:`, so that a member may look as if it stood in another one (`Continues`) although
nothing stands in a member. Main result: `isWithin_iff`.
-/

namespace Cochange.QualifiedId

open Text

variable {x p a b : QualifiedId}

/-! ## Up the parents -/

/-- The id around another one lacks its last part. -/
theorem parent?_eq_some_iff : x.parent? = some p ↔
    p.member = none ∧ p.path = x.path ∧
      ((x.member.isSome ∧ p.types = x.types) ∨
        (x.member = none ∧ ∃ t, x.types = p.types ++ [t])) := by
  unfold parent?
  split
  next m hm =>
    rw [Option.some.injEq]
    constructor
    · rintro rfl
      exact ⟨rfl, rfl, Or.inl ⟨by rw [hm]; rfl, rfl⟩⟩
    · rintro ⟨hmem, hpath, ⟨-, htypes⟩ | ⟨hnone, -⟩⟩
      · exact ext_parts hpath.symm htypes.symm hmem.symm
      · rw [hm] at hnone
        cases hnone
  next hm ht =>
    constructor
    · intro h
      cases h
    · rintro ⟨-, -, ⟨hsome, -⟩ | ⟨-, t, htypes⟩⟩
      · rw [hm] at hsome
        cases hsome
      · rw [ht] at htypes
        exact absurd htypes.symm (List.append_ne_nil_of_right_ne_nil _ (List.cons_ne_nil _ _))
  next t ts hm ht =>
    have hlast := List.dropLast_append_getLast (List.cons_ne_nil t ts)
    rw [Option.some.injEq]
    constructor
    · rintro rfl
      exact ⟨rfl, rfl, Or.inr ⟨hm, _, ht.trans hlast.symm⟩⟩
    · rintro ⟨hmem, hpath, ⟨hsome, -⟩ | ⟨-, u, htypes⟩⟩
      · rw [hm] at hsome
        cases hsome
      · refine ext_parts hpath.symm ?_ hmem.symm
        show (t :: ts).dropLast = p.types
        rw [← ht, htypes, List.dropLast_concat]

theorem depth_eq_of_parent? (h : x.parent? = some p) : x.depth = p.depth + 1 := by
  obtain ⟨hm, -, ⟨hsome, htypes⟩ | ⟨hnone, t, htypes⟩⟩ := parent?_eq_some_iff.mp h
  · simp [depth, hm, hsome, htypes]
  · simp [depth, hm, hnone, htypes]

theorem ancestors_of_parent?_eq_none (h : x.parent? = none) : x.ancestors = [] := by
  rw [ancestors]
  split
  next => rfl
  next p hp =>
    rw [h] at hp
    cases hp

theorem ancestors_of_parent? (h : x.parent? = some p) : x.ancestors = p :: p.ancestors := by
  rw [ancestors]
  split
  next hnone =>
    rw [h] at hnone
    cases hnone
  next q hq =>
    rw [h] at hq
    cases hq
    rfl

theorem eq_nil_of_parent?_eq_none (h : x.parent? = none) : x.member = none ∧ x.types = [] := by
  unfold parent? at h
  split at h
  next => cases h
  next hm ht => exact ⟨hm, ht⟩
  next => cases h

/-- Whether `a` is the id of a file or type that the parts of `x` begin with. -/
def IsContainerOf (a x : QualifiedId) : Prop :=
  a.member = none ∧ a.path = x.path ∧ a.types <+: x.types

/-- The containers of an id are those of its parent, and itself unless it is a member. -/
theorem isContainerOf_iff_of_parent? (h : x.parent? = some p) :
    a.IsContainerOf x ↔ a.IsContainerOf p ∨ (x.member = none ∧ a = x) := by
  obtain ⟨-, hpath, ⟨hsome, htypes⟩ | ⟨hnone, t, htypes⟩⟩ := parent?_eq_some_iff.mp h
  · have hnot : x.member ≠ none := fun he => by rw [he] at hsome; cases hsome
    unfold IsContainerOf
    rw [hpath, htypes]
    exact (or_iff_left fun hx => hnot hx.1).symm
  · unfold IsContainerOf
    rw [hpath, htypes, List.prefix_concat_iff]
    constructor
    · rintro ⟨hm, hp, ht | ht⟩
      · exact Or.inr ⟨hnone, ext_parts hp (ht.trans htypes.symm) (hm.trans hnone.symm)⟩
      · exact Or.inl ⟨hm, hp, ht⟩
    · rintro (⟨hm, hp, ht⟩ | ⟨hm, rfl⟩)
      · exact ⟨hm, hp, Or.inr ht⟩
      · exact ⟨hm, rfl, Or.inl htypes⟩

/-- Whether an id is `a` itself or `a` is one of those around it. -/
def IsNestedIn (x a : QualifiedId) : Prop :=
  a = x ∨ a ∈ x.ancestors

theorem isNestedIn_iff_of_parent?_eq_none (h : x.parent? = none) : x.IsNestedIn a ↔ a = x := by
  unfold IsNestedIn
  rw [ancestors_of_parent?_eq_none h]
  exact or_iff_left List.not_mem_nil

/-- An id is nested in itself and in what its parent is nested in. -/
theorem isNestedIn_iff_of_parent? (h : x.parent? = some p) :
    x.IsNestedIn a ↔ a = x ∨ p.IsNestedIn a := by
  unfold IsNestedIn
  rw [ancestors_of_parent? h, List.mem_cons]

/-- An id is nested in itself and in its containers. -/
theorem isNestedIn_iff : x.IsNestedIn a ↔ a = x ∨ a.IsContainerOf x := by
  induction x using ancestors.induct with
  | case1 x hnone =>
    obtain ⟨hm, ht⟩ := eq_nil_of_parent?_eq_none hnone
    rw [isNestedIn_iff_of_parent?_eq_none hnone]
    refine (or_iff_left_of_imp fun h => ?_).symm
    obtain ⟨ham, hap, hat⟩ := h
    rw [ht, List.prefix_nil] at hat
    exact ext_parts hap (hat.trans ht.symm) (ham.trans hm.symm)
  | case2 x p hp _ ih =>
    have hself : p.IsContainerOf p := ⟨(parent?_eq_some_iff.mp hp).1, rfl, List.prefix_rfl⟩
    have hparent : (a = p ∨ a.IsContainerOf p) ↔ a.IsContainerOf p :=
      or_iff_right_of_imp fun he => he ▸ hself
    rw [isNestedIn_iff_of_parent? hp, ih, hparent, isContainerOf_iff_of_parent? hp]
    tauto

theorem IsNestedIn.trans (hxa : x.IsNestedIn a) (hab : a.IsNestedIn b) : x.IsNestedIn b := by
  rw [isNestedIn_iff] at hxa hab ⊢
  rcases hxa with rfl | ⟨hm, hpath, htypes⟩
  · exact hab
  · rcases hab with rfl | ⟨hm', hpath', htypes'⟩
    · exact Or.inr ⟨hm, hpath, htypes⟩
    · exact Or.inr ⟨hm', hpath'.trans hpath, htypes'.trans htypes⟩

/-- Nesting goes deeper. -/
theorem IsNestedIn.depth_le (h : x.IsNestedIn a) : a.depth ≤ x.depth := by
  induction x using ancestors.induct with
  | case1 x hnone => exact ((isNestedIn_iff_of_parent?_eq_none hnone).mp h) ▸ Nat.le_refl _
  | case2 x p hp hlt ih =>
    rcases (isNestedIn_iff_of_parent? hp).mp h with rfl | h
    · exact Nat.le_refl _
    · exact Nat.le_of_lt (Nat.lt_of_le_of_lt (ih h) hlt)

/-- The ids in which an id is nested lie one in the other, so no two of them are as deep. -/
theorem IsNestedIn.eq_of_depth_eq (ha : x.IsNestedIn a) (hb : x.IsNestedIn b)
    (h : a.depth = b.depth) : a = b := by
  induction x using ancestors.induct with
  | case1 x hnone =>
    rw [isNestedIn_iff_of_parent?_eq_none hnone] at ha hb
    exact ha.trans hb.symm
  | case2 x p hp hlt ih =>
    rcases (isNestedIn_iff_of_parent? hp).mp ha with rfl | hap
    · rcases (isNestedIn_iff_of_parent? hp).mp hb with rfl | hbp
      · rfl
      · have hle := hbp.depth_le
        omega
    · rcases (isNestedIn_iff_of_parent? hp).mp hb with rfl | hbp
      · have hle := hap.depth_le
        omega
      · exact ih hap hbp

/-! ## Down the texts -/

/-- The text of the path and the types. -/
def containerText (x : QualifiedId) : List Char :=
  joinPieces ':' (x.path.text.toList, x.types.map (·.text.toList))

theorem hash_not_mem_containerText (x : QualifiedId) : '#' ∉ x.containerText := by
  unfold containerText joinPieces
  rw [List.flatMap_map]
  exact not_mem_containers x.path x.types

theorem toList_text_parts (x : QualifiedId) :
    x.text.toList = joinFirst '#' (x.containerText, x.member.map (·.text.toList)) := by
  rw [← joinFirst_cutFirst '#' x.text.toList, cutFirst_text]
  rfl

theorem token_text_injective : Function.Injective fun t : Token => t.text.toList := by
  rintro ⟨s, hs⟩ ⟨s', hs'⟩ h
  cases String.toList_inj.mp h
  rfl

/-- The text of the containers tells the path and the types. -/
theorem parts_of_containerText {ts : List (List Char)} (hts : ∀ t ∈ ts, ':' ∉ t)
    (h : x.containerText = joinPieces ':' (a.path.text.toList, a.types.map (·.text.toList) ++ ts)) :
    a.path = x.path ∧ a.types <+: x.types ∧ (ts = [] → a.types = x.types) := by
  have hpieces : ∀ t ∈ a.types.map (·.text.toList) ++ ts, ':' ∉ t := by
    intro t ht
    rcases List.mem_append.mp ht with ht | ht
    · obtain ⟨u, -, rfl⟩ := List.mem_map.mp ht
      exact u.ok.2.1
    · exact hts t ht
  have hparts := congrArg (pieces ':') h
  rw [containerText, pieces_containers, pieces_joinPieces a.path.ok.2.1 hpieces,
    Prod.mk.injEq] at hparts
  refine ⟨(token_text_injective hparts.1).symm, ?_, fun hnil => ?_⟩
  · obtain ⟨us, vs, hx, hus, -⟩ := List.map_eq_append_iff.mp hparts.2
    rw [← token_text_injective.list_map hus]
    exact ⟨vs, hx.symm⟩
  · rw [hnil, List.append_nil] at hparts
    exact (token_text_injective.list_map hparts.2).symm

/-- Whether the member of an id is that of `a`, continued behind a `:`. -/
def Continues (x a : QualifiedId) : Prop :=
  a.path = x.path ∧ a.types = x.types ∧
    ∃ m m' : Member, a.member = some m ∧ x.member = some m' ∧
      ∃ rest, m'.text.toList = m.text.toList ++ ':' :: rest

/-- What stands in a file or type is within it. -/
theorem isWithin_of_isContainerOf (h : a.IsContainerOf x) : x.isWithin a = true := by
  obtain ⟨hm, hp, ts, hts⟩ := h
  refine isWithin_iff_text.mpr ⟨behind ts x.member, ?_, startsApart_behind ts x.member⟩
  rw [toList_text_eq, toList_text_eq, behindPath, behindPath, hm, ← hts, hp]
  simp [behind]

/-- An id whose text goes on behind a separator passes the test by prefix. -/
theorem isWithin_of_continues (h : x.Continues a) : x.isWithin a = true := by
  obtain ⟨hp, ht, m, m', hm, hm', rest, hrest⟩ := h
  refine isWithin_iff_text.mpr ⟨':' :: rest, ?_, fun ch hch => by cases hch; rfl⟩
  rw [toList_text_eq, toList_text_eq, behindPath, behindPath, hm, hm', hp, ht]
  simp [behind, hrest]

/-- A text that is empty or begins with a separator consists of pieces with a `:` in front of
each, up to its first `#`. -/
theorem exists_pieces {cs : List Char} (h : StartsApart cs) :
    ∃ ts : List (List Char), (∀ t ∈ ts, ':' ∉ t) ∧ (cutFirst '#' cs).1 = ts.flatMap (':' :: ·) := by
  cases cs with
  | nil => exact ⟨[], by simp, rfl⟩
  | cons ch cs =>
    rw [cutFirst]
    split
    next => exact ⟨[], by simp, rfl⟩
    next hch =>
      have hcolon : ch = ':' := (isPlain_eq_false.mp (h ch rfl)).resolve_right hch
      have hpieces := @not_mem_pieces ':' (cutFirst '#' cs).1
      refine ⟨(pieces ':' (cutFirst '#' cs).1).1 :: (pieces ':' (cutFirst '#' cs).1).2, ?_, ?_⟩
      · intro t ht
        rcases List.mem_cons.mp ht with rfl | ht
        · exact hpieces.1
        · exact hpieces.2 t ht
      · show ch :: (cutFirst '#' cs).1 = ':' :: joinPieces ':' (pieces ':' (cutFirst '#' cs).1)
        rw [hcolon, joinPieces_pieces]

/-- What is within a file or type stands in it. -/
theorem isContainerOf_of_text (hm : a.member = none) {rest : List Char}
    (htext : x.text.toList = a.text.toList ++ rest) (hapart : StartsApart rest) :
    a.IsContainerOf x := by
  obtain ⟨ts, hts, hcut⟩ := exists_pieces hapart
  -- the rest is cut at its own first `#`, as the text of `x` is
  have hsame : joinFirst '#' (x.containerText, x.member.map (·.text.toList)) =
      joinFirst '#' (a.containerText ++ (cutFirst '#' rest).1, (cutFirst '#' rest).2) := by
    rw [← toList_text_parts, htext, toList_text_parts, hm]
    conv => lhs; rw [← joinFirst_cutFirst '#' rest]
    simp [joinFirst]
  have hhash : '#' ∉ a.containerText ++ (cutFirst '#' rest).1 := by
    rw [List.mem_append, not_or]
    exact ⟨a.hash_not_mem_containerText, not_mem_cutFirst '#' rest⟩
  have hparts := congrArg (cutFirst '#') hsame
  rw [cutFirst_joinFirst x.hash_not_mem_containerText, cutFirst_joinFirst hhash,
    Prod.mk.injEq] at hparts
  have hcontainers : x.containerText =
      joinPieces ':' (a.path.text.toList, a.types.map (·.text.toList) ++ ts) := by
    rw [hparts.1, hcut]
    simp [containerText, joinPieces]
  obtain ⟨hp, ht, -⟩ := parts_of_containerText hts hcontainers
  exact ⟨hm, hp, ht⟩

/-- What is within a member is that member, or looks as if it stood in it. -/
theorem eq_or_continues_of_text {m : Member} (hm : a.member = some m) {rest : List Char}
    (htext : x.text.toList = a.text.toList ++ rest) (hapart : StartsApart rest) :
    a = x ∨ x.Continues a := by
  have hsame : joinFirst '#' (x.containerText, x.member.map (·.text.toList)) =
      joinFirst '#' (a.containerText, some (m.text.toList ++ rest)) := by
    rw [← toList_text_parts, htext, toList_text_parts, hm]
    simp [joinFirst]
  have hparts := congrArg (cutFirst '#') hsame
  rw [cutFirst_joinFirst x.hash_not_mem_containerText,
    cutFirst_joinFirst a.hash_not_mem_containerText, Prod.mk.injEq] at hparts
  obtain ⟨m', hm', hmember⟩ := Option.map_eq_some_iff.mp hparts.2
  cases rest with
  | nil =>
    rw [List.append_nil] at htext
    exact Or.inl (text_injective (String.toList_inj.mp htext)).symm
  | cons ch rest =>
    have hcolon : ch = ':' := by
      refine (isPlain_eq_false.mp (hapart ch rfl)).resolve_right fun he => m'.ok.2 ?_
      rw [hmember, he]
      simp
    have hcontainers : x.containerText =
        joinPieces ':' (a.path.text.toList, a.types.map (·.text.toList) ++ []) := by
      rw [List.append_nil]
      exact hparts.1
    obtain ⟨hp, -, ht⟩ := parts_of_containerText (by simp) hcontainers
    exact Or.inr ⟨hp, ht rfl, m, m', hm, hm', rest, hcolon ▸ hmember⟩

/-- An id is within another one if it is this one or stands in it, or if it is a member that
continues another member. -/
theorem isWithin_iff : x.isWithin a = true ↔ x.IsNestedIn a ∨ x.Continues a := by
  rw [isNestedIn_iff]
  constructor
  · intro h
    obtain ⟨rest, htext, hapart⟩ := isWithin_iff_text.mp h
    cases hm : a.member with
    | none => exact Or.inl (Or.inr (isContainerOf_of_text hm htext hapart))
    | some m => exact (eq_or_continues_of_text hm htext hapart).imp_left Or.inl
  · rintro ((rfl | h) | h)
    · exact isWithin_iff_text.mpr ⟨[], (List.append_nil _).symm, fun ch hch => by cases hch⟩
    · exact isWithin_of_isContainerOf h
    · exact isWithin_of_continues h

/-- A member that continues another one does not stand in it. -/
theorem Continues.not_isNestedIn (h : x.Continues a) : ¬x.IsNestedIn a := by
  obtain ⟨-, -, m, m', hm, hm', rest, hrest⟩ := h
  rw [isNestedIn_iff]
  rintro (rfl | ⟨hnone, -⟩)
  · rw [hm, Option.some.injEq] at hm'
    rw [← hm'] at hrest
    have hlen := congrArg List.length hrest
    rw [List.length_append, List.length_cons] at hlen
    omega
  · rw [hm] at hnone
    cases hnone

end Cochange.QualifiedId
