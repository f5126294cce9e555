import Cochange.Interner

/-!
# Sparse matrices

A matrix over handles of which only some cells are recorded, kept as one map per row; rows are
added when they are first written to.

Whoever writes a cell `(x, y)` and its opposite `(y, x)` keeps the matrix symmetric. Then
`removeEntity`, which takes out a row and the cells opposite to its cells, takes out the column as
well.

* `get?_modify`, `get?_removeEntity`: an operation changes the cells it is meant to change and no
  other.
* `mem_cells`: the cells that are listed are the recorded ones.
-/

namespace Cochange

/-- The recorded cells, row by row. -/
structure SparseMatrix (α : Type) where
  rows : Array (Std.ExtTreeMap Handle α) := #[]

namespace SparseMatrix

variable {α β : Type}

/-- No cell recorded. -/
def empty : SparseMatrix α :=
  {}

/-- The cells of a row. -/
def rowMap (m : SparseMatrix α) (x : Handle) : Std.ExtTreeMap Handle α :=
  m.rows[x]?.getD ∅

/-- The value of a cell, if it is recorded. -/
def get? (m : SparseMatrix α) (x y : Handle) : Option α :=
  (m.rowMap x)[y]?

/-- The matrix with rows up to `x` at least. -/
def withRow (m : SparseMatrix α) (x : Handle) : SparseMatrix α :=
  ⟨m.rows ++ Array.replicate (x + 1 - m.rows.size) ∅⟩

/-- The matrix with a cell changed; `f` is given the old value, if there is one. -/
def modify (m : SparseMatrix α) (x y : Handle) (f : Option α → α) : SparseMatrix α :=
  ⟨(m.withRow x).rows.modify x fun row => row.alter y fun v => some (f v)⟩

/-- The matrix with a cell set. -/
def set (m : SparseMatrix α) (x y : Handle) (v : α) : SparseMatrix α :=
  m.modify x y fun _ => v

/-- The recorded cells of a row, in order. -/
def row (m : SparseMatrix α) (x : Handle) : List (Handle × α) :=
  (m.rowMap x).toList

/-- All recorded cells, row by row. -/
def cells (m : SparseMatrix α) : List (Handle × Handle × α) :=
  (List.range m.rows.size).flatMap fun x => (m.row x).map fun c => (x, c.1, c.2)

/-- The matrix without a cell. -/
def erase (m : SparseMatrix α) (x y : Handle) : SparseMatrix α :=
  ⟨m.rows.modify x (·.erase y)⟩

/-- The matrix without a row and without the cells opposite to its cells. -/
def removeEntity (m : SparseMatrix α) (x : Handle) : SparseMatrix α :=
  let cleared : SparseMatrix α := ⟨m.rows.modify x fun _ => ∅⟩
  (m.row x).foldl (fun m c => m.erase c.1 x) cleared

/-- How many cells are recorded. -/
def size (m : SparseMatrix α) : Nat :=
  m.rows.foldl (fun n row => n + row.size) 0

/-- Whether no cell is recorded. -/
def isEmpty (m : SparseMatrix α) : Bool :=
  m.rows.all (·.isEmpty)

/-- The matrix with other values in its cells; cells given no value are left out. -/
def filterMap (m : SparseMatrix α) (f : Handle → Handle → α → Option β) : SparseMatrix β :=
  ⟨m.rows.mapIdx fun x row => row.filterMap fun y v => f x y v⟩

/-! ## What the operations do to the cells -/

theorem get?_empty (x y : Handle) : (empty : SparseMatrix α).get? x y = none := by
  simp [get?, rowMap, empty]

/-- Making room for a row changes none. -/
theorem rowMap_withRow (m : SparseMatrix α) (x a : Handle) : (m.withRow x).rowMap a = m.rowMap a := by
  unfold rowMap withRow
  rw [Array.getElem?_append]
  split
  · rfl
  · next h =>
    rw [Array.getElem?_replicate, Array.getElem?_eq_none (by omega)]
    split <;> rfl

theorem lt_size_withRow (m : SparseMatrix α) (x : Nat) : x < (m.withRow x).rows.size := by
  unfold withRow
  simp only [Array.size_append, Array.size_replicate]
  omega

/-- Only the cell is changed. -/
theorem get?_modify (m : SparseMatrix α) (x y : Handle) (f : Option α → α) (a b : Handle) :
    (m.modify x y f).get? a b =
      if a = x ∧ b = y then some (f (m.get? x y)) else m.get? a b := by
  have hs := m.lt_size_withRow x
  have hr := m.rowMap_withRow x
  unfold get?
  rw [← hr a, ← hr x]
  unfold modify rowMap
  simp only
  rw [Array.getElem?_modify]
  by_cases hx : a = x
  · subst hx
    by_cases hy : b = y
    · subst hy; simp [hs]
    · simp [hs, hy, Std.ExtTreeMap.getElem?_alter, Ne.symm hy]
  · simp [hx, Ne.symm hx]

/-- Setting a cell changes that cell only. -/
theorem get?_set (m : SparseMatrix α) (x y : Handle) (v : α) (a b : Handle) :
    (m.set x y v).get? a b = if a = x ∧ b = y then some v else m.get? a b :=
  m.get?_modify x y (fun _ => v) a b

/-- Erasing a cell changes that cell only. -/
theorem get?_erase (m : SparseMatrix α) (x y a b : Handle) :
    (m.erase x y).get? a b = if a = x ∧ b = y then none else m.get? a b := by
  unfold get? erase rowMap
  simp only
  rw [Array.getElem?_modify]
  by_cases hx : a = x
  · subst hx
    cases m.rows[a]? with
    | none => simp
    | some r =>
      by_cases hy : b = y
      · subst hy; simp
      · simp [Std.ExtTreeMap.getElem?_erase, hy, Ne.symm hy]
  · simp [hx, Ne.symm hx]

/-- A row lists the recorded cells of an entity, each with its column. -/
theorem mem_row {m : SparseMatrix α} {x y : Handle} {v : α} :
    (y, v) ∈ m.row x ↔ m.get? x y = some v := by
  unfold row get?
  rw [Std.ExtTreeMap.mem_toList_iff_getElem?_eq_some]

/-- The listing holds the recorded cells and no others. -/
theorem mem_cells {m : SparseMatrix α} {x y : Handle} {v : α} :
    (x, y, v) ∈ m.cells ↔ m.get? x y = some v := by
  unfold cells
  simp only [List.mem_flatMap, List.mem_range, List.mem_map, Prod.mk.injEq]
  constructor
  · rintro ⟨a, _, ⟨b, w⟩, hc, rfl, rfl, rfl⟩
    exact mem_row.1 hc
  · intro h
    refine ⟨x, ?_, (y, v), mem_row.2 h, rfl, rfl, rfl⟩
    refine Nat.lt_of_not_le fun hx => ?_
    simp [get?, rowMap, Array.getElem?_eq_none hx] at h

/-- Erasing a column at some rows leaves all other cells. -/
theorem get?_foldl_erase (x : Handle) (cs : List (Handle × β)) (m : SparseMatrix α)
    (a b : Handle) :
    (cs.foldl (fun m c => m.erase c.1 x) m).get? a b =
      if b = x ∧ a ∈ cs.map (·.1) then none else m.get? a b := by
  induction cs generalizing m with
  | nil => simp
  | cons c cs ih =>
    rw [List.foldl_cons, ih, get?_erase]
    by_cases hb : b = x <;> by_cases ha : a ∈ cs.map (·.1) <;> by_cases hc : a = c.1 <;>
      simp_all

/-- The cells of the row are taken out, and those opposite to a recorded one. -/
theorem get?_removeEntity (m : SparseMatrix α) (x a b : Handle) :
    (m.removeEntity x).get? a b =
      if a = x ∨ (b = x ∧ (m.get? x a).isSome) then none else m.get? a b := by
  have hc : (⟨m.rows.modify x fun _ => ∅⟩ : SparseMatrix α).get? a b =
      if a = x then none else m.get? a b := by
    unfold get? rowMap
    simp only
    rw [Array.getElem?_modify]
    by_cases hx : a = x
    · subst hx
      cases m.rows[a]? <;> simp
    · simp [hx, Ne.symm hx]
  have hr : a ∈ (m.row x).map (·.1) ↔ (m.get? x a).isSome := by
    simp only [List.mem_map, Prod.exists, exists_and_right, exists_eq_right, mem_row,
      Option.isSome_iff_exists]
  unfold removeEntity
  simp only
  rw [get?_foldl_erase, hc]
  simp only [hr]
  by_cases ha : a = x <;> simp [ha]

/-- Giving cells other values, or none, is done cell by cell. -/
theorem get?_filterMap (m : SparseMatrix α) (f : Handle → Handle → α → Option β) (x y : Handle) :
    (m.filterMap f).get? x y = (m.get? x y).bind (f x y) := by
  unfold get? filterMap rowMap
  simp only [Array.getElem?_mapIdx]
  cases m.rows[x]? with
  | none => simp
  | some r => simp [Std.ExtTreeMap.getElem?_filterMap]

end SparseMatrix

end Cochange
