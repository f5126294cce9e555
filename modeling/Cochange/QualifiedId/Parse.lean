import Cochange.QualifiedId.Basic

/-!
# Reading qualified ids

An id is read by cutting it at its first `#` and the part before that at every `:`. Members
and nested types are appended with `child`.

* `parse?_eq_some`: a text is read as `x` exactly when it is the text of `x`. So every id can
  be read back, no text is read in two ways, and two ids with one text are equal.
-/

namespace Cochange

open Text

/-- Why a text is no qualified id. -/
inductive IdError where
  /-- The text does not follow the grammar, or names a child that cannot be. -/
  | malformed (text : String)
  /-- A file was to be put inside another node. -/
  | nestedFile (parent : QualifiedId)
  deriving DecidableEq

/-- The text of the error. -/
def IdError.message : IdError → String
  | malformed text => "invalid qualified id '" ++ text ++ "'"
  | nestedFile parent =>
    "invalid qualified id '" ++ parent.text ++ ": a file cannot be nested in another node'"

namespace QualifiedId

/-- The tokens of the texts, if each of them can be one. -/
def tokens? : List (List Char) → Option (List Token)
  | [] => some []
  | t :: ts =>
    match Token.ofString? (String.ofList t), tokens? ts with
    | some t, some ts => some (t :: ts)
    | _, _ => none

/-- The id that a text spells. -/
def parse? (s : String) : Option QualifiedId :=
  let (containers, member) := cutFirst '#' s.toList
  let (path, types) := pieces ':' containers
  match Token.ofString? (String.ofList path), tokens? types with
  | some path, some types =>
    match member with
    | none => some { path, types, member := none }
    | some m =>
      (Member.ofString? (String.ofList m)).map fun m => { path, types, member := some m }
  | _, _ => none

/-- The id that a text spells, or the reason why there is none. -/
def parse (s : String) : Except IdError QualifiedId :=
  match parse? s with
  | some x => .ok x
  | none => .error (.malformed s)

/-- Whether a text spells an id. -/
def isValid (s : String) : Bool :=
  (parse? s).isSome

/-- The id of the source file with this path. -/
def file (path : String) : Except IdError QualifiedId :=
  match Token.ofString? path with
  | some t => .ok (ofPath t)
  | none => .error (.malformed path)

/-- The id of a node nested directly in this one. Members have no children, types are named
by tokens, and a file is nested in nothing. -/
def child (x : QualifiedId) (kind : NodeKind) (simpleId : String) : Except IdError QualifiedId :=
  match kind with
  | .file => .error (.nestedFile x)
  | .type =>
    match x.member, Token.ofString? simpleId with
    | none, some t => .ok { path := x.path, types := x.types ++ [t], member := none }
    | _, _ => .error (.malformed (x.text ++ ":" ++ simpleId))
  | .function | .var =>
    match x.member, Member.ofString? simpleId with
    | none, some m => .ok { path := x.path, types := x.types, member := some m }
    | _, _ => .error (.malformed (x.text ++ "#" ++ simpleId))

/-! ## What is read is what is written -/

/-- Pieces are read as tokens if they are the texts of these. -/
theorem tokens?_eq_some {cs : List (List Char)} {ts : List Token} :
    tokens? cs = some ts ↔ cs = ts.map (·.text.toList) := by
  induction cs generalizing ts with
  | nil => cases ts <;> simp [tokens?]
  | cons c cs ih =>
    unfold tokens?
    constructor
    · intro h
      split at h
      · next t us ht hus =>
        cases h
        rw [Token.ofString?_eq_some] at ht
        simp [ht, ih.1 hus]
      · cases h
    · intro h
      obtain ⟨t, us, rfl⟩ : ∃ t us, ts = t :: us := by
        cases ts with
        | nil => simp at h
        | cons t us => exact ⟨t, us, rfl⟩
      simp only [List.map_cons, List.cons.injEq] at h
      have ht : Token.ofString? (String.ofList c) = some t := by
        rw [Token.ofString?_eq_some, h.1, String.ofList_toList]
      simp [ht, ih.2 h.2]

/-- In front of the member there is no number sign. -/
theorem not_mem_containers (path : Token) (types : List Token) :
    '#' ∉ path.text.toList ++ types.flatMap (fun t => ':' :: t.text.toList) := by
  simp only [List.mem_append, List.mem_flatMap, List.mem_cons, not_or, not_exists, not_and]
  exact ⟨path.ok.2.2, fun t _ => ⟨by decide, t.ok.2.2⟩⟩

/-- The first number sign of an id is the one in front of its member. -/
theorem cutFirst_text (x : QualifiedId) :
    cutFirst '#' x.text.toList =
      (joinPieces ':' (x.path.text.toList, x.types.map (·.text.toList)),
        x.member.map (·.text.toList)) := by
  have hj : joinPieces ':' (x.path.text.toList, x.types.map (·.text.toList)) =
      x.path.text.toList ++ x.types.flatMap (fun t => ':' :: t.text.toList) := by
    simp [joinPieces, List.flatMap_map]
  rw [toList_text, hj]
  unfold spell
  cases x.member with
  | none => simpa using cutFirst_of_not_mem (not_mem_containers x.path x.types)
  | some m => simpa using cutFirst_append (not_mem_containers x.path x.types) m.text.toList

/-- In front of the member the colons stand between the path and the types. -/
theorem pieces_containers (x : QualifiedId) :
    pieces ':' (joinPieces ':' (x.path.text.toList, x.types.map (·.text.toList))) =
      (x.path.text.toList, x.types.map (·.text.toList)) := by
  apply pieces_joinPieces x.path.ok.2.1
  simp only [List.mem_map, forall_exists_index, and_imp]
  rintro _ t _ rfl
  exact t.ok.2.1

/-- The text of an id is read as the id. -/
theorem parse?_text (x : QualifiedId) : parse? x.text = some x := by
  unfold parse?
  simp only [cutFirst_text, pieces_containers]
  have hp : Token.ofString? (String.ofList x.path.text.toList) = some x.path := by
    rw [Token.ofString?_eq_some, String.ofList_toList]
  have ht : tokens? (x.types.map (·.text.toList)) = some x.types := tokens?_eq_some.2 rfl
  rw [hp, ht]
  cases hm : x.member with
  | none => exact congrArg some (ext_parts rfl rfl hm.symm)
  | some m =>
    have h : Member.ofString? (String.ofList m.text.toList) = some m := by
      rw [Member.ofString?_eq_some, String.ofList_toList]
    simp only [Option.map_some, h]
    exact congrArg some (ext_parts rfl rfl hm.symm)

/-- What is read from a text has this text. -/
theorem text_of_parse? {s : String} {x : QualifiedId} (h : parse? s = some x) : x.text = s := by
  have hs : s.toList = joinFirst '#' (cutFirst '#' s.toList) := (joinFirst_cutFirst _ _).symm
  have hc := (joinPieces_pieces ':' (cutFirst '#' s.toList).1).symm
  rw [← String.toList_inj, toList_text, hs]
  unfold parse? at h
  simp only at h
  split at h
  · next p ts hp hts =>
    rw [Token.ofString?_eq_some] at hp
    rw [tokens?_eq_some] at hts
    have hcon : (cutFirst '#' s.toList).1 =
        p.text.toList ++ ts.flatMap (fun t => ':' :: t.text.toList) := by
      rw [hc, joinPieces, hts, hp]
      simp [List.flatMap_map]
    split at h
    · next hm =>
      cases h
      simp [joinFirst, hm, hcon, spell]
    · next m hm =>
      obtain ⟨mem, hmem, rfl⟩ := Option.map_eq_some_iff.1 h
      rw [Member.ofString?_eq_some] at hmem
      simp [joinFirst, hm, hcon, spell, hmem]
  · simp at h

/-- A text is read as `x` exactly when it is the text of `x`. -/
theorem parse?_eq_some {s : String} {x : QualifiedId} : parse? s = some x ↔ x.text = s :=
  ⟨text_of_parse?, fun h => h ▸ parse?_text x⟩

/-- An id is determined by its text. -/
theorem text_injective {x y : QualifiedId} (h : x.text = y.text) : x = y :=
  Option.some.inj (by rw [← parse?_text x, ← parse?_text y, h])

instance : Std.LawfulEqOrd QualifiedId where
  eq_of_compare {x y} h := text_injective (Std.LawfulEqOrd.eq_of_compare (compare_def x y ▸ h))

end QualifiedId

end Cochange
