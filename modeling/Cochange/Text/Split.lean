/-!
# Cutting text at a separator

`cutFirst` cuts a text at the first separator, `pieces` at every one.

* `cutFirst_append`, `pieces_joinPieces`: putting the parts together again and cutting gives the
  parts back, as long as the separator does not occur in them.
* `joinFirst_cutFirst`, `joinPieces_pieces`: nothing of the text is lost.
-/

namespace Cochange.Text

/-- The text before the first `sep` and, if there is one, the text behind it. -/
def cutFirst (sep : Char) : List Char → List Char × Option (List Char)
  | [] => ([], none)
  | c :: cs =>
    if c = sep then ([], some cs)
    else
      let parts := cutFirst sep cs
      (c :: parts.1, parts.2)

/-- The pieces of a text between the separators: the first and the others. -/
def pieces (sep : Char) : List Char → List Char × List (List Char)
  | [] => ([], [])
  | c :: cs =>
    let parts := pieces sep cs
    if c = sep then ([], parts.1 :: parts.2) else (c :: parts.1, parts.2)

/-- The two parts of a text around a separator. -/
def joinFirst (sep : Char) (parts : List Char × Option (List Char)) : List Char :=
  parts.1 ++ parts.2.elim [] (sep :: ·)

/-- Pieces with a separator between any two neighbours. -/
def joinPieces (sep : Char) (parts : List Char × List (List Char)) : List Char :=
  parts.1 ++ parts.2.flatMap (sep :: ·)

/-- What is cut at the first separator can be joined again. -/
theorem joinFirst_cutFirst (sep : Char) (cs : List Char) :
    joinFirst sep (cutFirst sep cs) = cs := by
  induction cs with
  | nil => rfl
  | cons c cs ih =>
    rw [cutFirst]
    split
    · next h => simp [joinFirst, h]
    · next h =>
      revert ih
      rcases cutFirst sep cs with ⟨as, _ | bs⟩ <;> simp [joinFirst]

/-- What is cut into pieces can be joined again. -/
theorem joinPieces_pieces (sep : Char) (cs : List Char) :
    joinPieces sep (pieces sep cs) = cs := by
  induction cs with
  | nil => rfl
  | cons c cs ih =>
    simp only [joinPieces] at ih
    simp only [pieces]
    split
    · next h => simp [joinPieces, h, ih]
    · next h => simp [joinPieces, ih]

/-- In front of the cut there is no separator. -/
theorem not_mem_cutFirst (sep : Char) (cs : List Char) : sep ∉ (cutFirst sep cs).1 := by
  induction cs with
  | nil => simp [cutFirst]
  | cons c cs ih =>
    rw [cutFirst]
    split
    · simp
    · next h => simp [ih, Ne.symm h]

/-- Pieces have no separator within. -/
theorem not_mem_pieces {sep : Char} (cs : List Char) :
    sep ∉ (pieces sep cs).1 ∧ ∀ t ∈ (pieces sep cs).2, sep ∉ t := by
  induction cs with
  | nil => simp [pieces]
  | cons c cs ih =>
    rw [pieces]
    split
    · simpa using ih
    · next h => exact ⟨by simp [ih.1, Ne.symm h], ih.2⟩

theorem cutFirst_of_not_mem {sep : Char} {as : List Char} (h : sep ∉ as) :
    cutFirst sep as = (as, none) := by
  induction as with
  | nil => rfl
  | cons a as ih =>
    simp only [List.mem_cons, not_or] at h
    simp [cutFirst, Ne.symm h.1, ih h.2]

/-- A text is cut where its first separator stands. -/
theorem cutFirst_append {sep : Char} {as : List Char} (h : sep ∉ as) (bs : List Char) :
    cutFirst sep (as ++ sep :: bs) = (as, some bs) := by
  induction as with
  | nil => simp [cutFirst]
  | cons a as ih =>
    simp only [List.mem_cons, not_or] at h
    simp [cutFirst, Ne.symm h.1, ih h.2]

/-- Parts that are joined are found again by cutting. -/
theorem cutFirst_joinFirst {sep : Char} {as : List Char} (h : sep ∉ as) (bs : Option (List Char)) :
    cutFirst sep (joinFirst sep (as, bs)) = (as, bs) := by
  cases bs with
  | none =>
    show cutFirst sep (as ++ []) = (as, none)
    rw [List.append_nil, cutFirst_of_not_mem h]
  | some bs => exact cutFirst_append h bs

theorem pieces_of_not_mem {sep : Char} {as : List Char} (h : sep ∉ as) :
    pieces sep as = (as, []) := by
  induction as with
  | nil => rfl
  | cons a as ih =>
    simp only [List.mem_cons, not_or] at h
    simp [pieces, Ne.symm h.1, ih h.2]

/-- Cutting a text that is put together around a separator cuts both its parts. -/
theorem pieces_append (sep : Char) (as bs : List Char) :
    pieces sep (as ++ sep :: bs) =
      ((pieces sep as).1, (pieces sep as).2 ++ (pieces sep bs).1 :: (pieces sep bs).2) := by
  induction as with
  | nil => simp [pieces]
  | cons a as ih =>
    rw [List.cons_append, pieces, pieces, ih]
    split <;> rfl

/-- Pieces that are joined are found again by cutting. -/
theorem pieces_joinPieces {sep : Char} {as : List Char} {ts : List (List Char)}
    (has : sep ∉ as) (hts : ∀ t ∈ ts, sep ∉ t) : pieces sep (joinPieces sep (as, ts)) = (as, ts) := by
  induction ts generalizing as with
  | nil => simp [joinPieces, pieces_of_not_mem has]
  | cons t ts ih =>
    have key := ih (hts t (by simp)) fun u hu => hts u (by simp [hu])
    simp only [joinPieces] at key
    simp [joinPieces, pieces_append, pieces_of_not_mem has, key]

end Cochange.Text
