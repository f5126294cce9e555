import Cochange.Proofs.Matrix.Cells
import Mathlib.Data.Prod.Lex

/-!
# A matrix is a finite map on pairs

Cells are written and entities taken out, any number of times and in any order. What an operation
does to the cells is said by `Operation.effect`. A matrix and a finite map on pairs of handles both
change as it says (`get?_perform`, `Table.cell_perform`), so they hold the same cells all along
(`get?_built`), and from this alone they give the same answers (`agrees_of_get?`): for single
cells, rows, the whole listing and its length.

Rows that were never written to, cells on the diagonal and cells without an opposite are no
exceptions. What becomes of a matrix that has all its cells in both orientations is part of
`built_agrees`.
-/

namespace Cochange

namespace SparseMatrix

variable {α : Type}

/-! ## Operations -/

/-- An operation on a matrix. -/
inductive Operation (α : Type) where
  | set (x y : Handle) (v : α)
  /-- What a cell holds is changed; a cell that was not recorded holds the default before. -/
  | entry (x y : Handle) (f : α → α)
  | remove (x : Handle)

/-- What a cell holds after an operation, by what the cells held before. -/
def Operation.effect [Inhabited α] (cell : Handle → Handle → Option α) (a b : Handle) :
    Operation α → Option α
  | .set x y v => if a = x ∧ b = y then some v else cell a b
  | .entry x y f => if a = x ∧ b = y then some (f ((cell x y).getD default)) else cell a b
  | .remove x => if a = x ∨ (b = x ∧ (cell x a).isSome) then none else cell a b

section Operations

variable [Inhabited α]

/-- The matrix after an operation. -/
def perform (m : SparseMatrix α) : Operation α → SparseMatrix α
  | .set x y v => m.set x y v
  | .entry x y f => m.modify x y fun v => f (v.getD default)
  | .remove x => m.removeEntity x

/-- The matrix that operations make of the empty one. -/
def built (ops : List (Operation α)) : SparseMatrix α :=
  ops.foldl perform .empty

/-- Each operation does to look-ups what its effect says. -/
theorem get?_perform (m : SparseMatrix α) (o : Operation α) (a b : Handle) :
    (m.perform o).get? a b = o.effect m.get? a b := by
  cases o with
  | set x y v => exact m.get?_set x y v a b
  | entry x y f => exact m.get?_modify x y _ a b
  | remove x => exact m.get?_removeEntity x a b

end Operations

/-! ## Finite maps -/

/-- Pairs are compared by their first components, then by their second. -/
instance lawfulEqOrd_pair : Std.LawfulEqOrd (Handle ×ₗ Handle) where
  eq_of_compare := compare_eq_iff_eq.mp

/-- A finite map on pairs. -/
abbrev Table (α : Type) :=
  Std.ExtTreeMap (Handle ×ₗ Handle) α

namespace Table

/-- What a pair is mapped to. -/
def cell (t : Table α) (x y : Handle) : Option α :=
  t[toLex (x, y)]?

theorem cell_insert (t : Table α) (x y : Handle) (v : α) (a b : Handle) :
    cell (t.insert (toLex (x, y)) v) a b = if a = x ∧ b = y then some v else t.cell a b := by
  unfold cell
  rw [Std.ExtTreeMap.getElem?_insert]
  refine if_congr ?_ rfl rfl
  rw [Std.compare_eq_iff_eq, toLex_inj, Prod.mk.injEq, eq_comm, @eq_comm _ y]

theorem cell_filter (t : Table α) (p : Handle → Handle → Prop) [DecidableRel p] (a b : Handle) :
    cell (t.filter fun c _ => ¬p (ofLex c).1 (ofLex c).2) a b =
      if p a b then none else t.cell a b := by
  unfold cell
  rw [Std.ExtTreeMap.getElem?_filter']
  cases t[toLex (a, b)]? with
  | none => simp
  | some v => by_cases hp : p a b <;> simp [Option.filter, hp]

variable [Inhabited α]

/-- The map after an operation: a pair is inserted, or pairs are filtered out. -/
def perform (t : Table α) : Operation α → Table α
  | .set x y v => t.insert (toLex (x, y)) v
  | .entry x y f => t.insert (toLex (x, y)) (f ((t.cell x y).getD default))
  | .remove x =>
    t.filter fun c _ =>
      ¬((ofLex c).1 = x ∨ ((ofLex c).2 = x ∧ (t.cell x (ofLex c).1).isSome))

/-- The map that operations make of the empty one. -/
def built (ops : List (Operation α)) : Table α :=
  ops.foldl perform ∅

/-- Each operation does to the table what its effect says. -/
theorem cell_perform (t : Table α) (o : Operation α) (a b : Handle) :
    (t.perform o).cell a b = o.effect t.cell a b := by
  cases o with
  | set x y v => exact t.cell_insert x y v a b
  | entry x y f => exact t.cell_insert x y _ a b
  | remove x => exact t.cell_filter (fun a b => a = x ∨ (b = x ∧ (t.cell x a).isSome)) a b

theorem built_append (ops : List (Operation α)) (o : Operation α) :
    built (ops ++ [o]) = (built ops).perform o := by
  unfold built
  rw [List.foldl_append]
  rfl

end Table

/-! ## Agreement -/

/-- Whether a matrix answers as a finite map does, and lists no cell twice. -/
structure Agrees (m : SparseMatrix α) (t : Table α) : Prop where
  get? : ∀ x y, m.get? x y = t.cell x y
  mem_row : ∀ x y v, (y, v) ∈ m.row x ↔ t.cell x y = some v
  nodup_row : ∀ x, ((m.row x).map fun c => c.1).Nodup
  mem_cells : ∀ x y v, (x, y, v) ∈ m.cells ↔ t.cell x y = some v
  nodup_cells : (m.cells.map fun c => (c.1, c.2.1)).Nodup
  size : m.size = t.size
  isEmpty : m.isEmpty = t.isEmpty

section Agreement

variable {m : SparseMatrix α} {t : Table α}

/-- The listing has the entries of the map. -/
theorem perm_toList (h : ∀ x y, m.get? x y = t.cell x y) :
    (m.cells.map fun c => (toLex (c.1, c.2.1), c.2.2)).Perm t.toList := by
  refine (List.perm_ext_iff_of_nodup ?_ ?_).mpr ?_
  · refine List.pairwise_map.mpr (m.distinct_cells.imp fun hne he => hne ?_)
    exact toLex_inj.mp (Prod.ext_iff.mp he).1
  · refine Std.ExtTreeMap.distinct_keys_toList.imp fun hne he => hne ?_
    rw [he, Std.compare_self]
  · rintro ⟨p, v⟩
    obtain ⟨⟨x, y⟩, rfl⟩ := toLex.surjective p
    rw [Std.ExtTreeMap.mem_toList_iff_getElem?_eq_some]
    show _ ↔ t.cell x y = some v
    rw [← h, ← SparseMatrix.mem_cells, List.mem_map]
    constructor
    · rintro ⟨⟨a, b, w⟩, hc, he⟩
      obtain ⟨hp, rfl⟩ := Prod.ext_iff.mp he
      obtain ⟨rfl, rfl⟩ := Prod.ext_iff.mp (toLex_inj.mp hp)
      exact hc
    · exact fun hc => ⟨(x, y, v), hc, rfl⟩

/-- All answers are told by the cells. -/
theorem agrees_of_get? (h : ∀ x y, m.get? x y = t.cell x y) : Agrees m t where
  get? := h
  mem_row x y v := by rw [← h, SparseMatrix.mem_row]
  nodup_row := m.nodup_row
  mem_cells x y v := by rw [← h, SparseMatrix.mem_cells]
  nodup_cells := List.pairwise_map.mpr m.distinct_cells
  size := by
    rw [← m.length_cells, ← Std.ExtTreeMap.length_toList, ← (perm_toList h).length_eq,
      List.length_map]
  isEmpty := by
    rw [← m.isEmpty_cells, ← Std.ExtTreeMap.isEmpty_toList, ← (perm_toList h).isEmpty_eq,
      List.isEmpty_map]

variable [Inhabited α]

/-- The step. -/
theorem get?_perform_eq (h : ∀ x y, m.get? x y = t.cell x y) (o : Operation α) (x y : Handle) :
    (m.perform o).get? x y = (t.perform o).cell x y := by
  rw [get?_perform, t.cell_perform, funext₂ h]

/-- The run. -/
theorem get?_foldl_perform (ops : List (Operation α)) :
    ∀ {m : SparseMatrix α} {t : Table α}, (∀ x y, m.get? x y = t.cell x y) → ∀ x y,
      (ops.foldl perform m).get? x y = (ops.foldl Table.perform t).cell x y := by
  induction ops with
  | nil => exact fun h => h
  | cons o ops ih => exact fun h => ih (get?_perform_eq h o)

/-- The matrix and the table agree after any operations. -/
theorem get?_built (ops : List (Operation α)) (x y : Handle) :
    (built ops).get? x y = (Table.built ops).cell x y := by
  refine get?_foldl_perform ops (fun x y => ?_) x y
  rw [get?_empty]
  exact Std.ExtTreeMap.getElem?_empty.symm

end Agreement

/-- Whatever was done to a matrix, it answers as a finite map on pairs that was changed by the same
operations, each of them as `Operation.effect` says. If its cells are recorded in both
orientations, an entity is taken out with all cells that mention it and with no others, and the
cells are still recorded in both orientations, and with the same values if they were so before. -/
theorem built_agrees [Inhabited α] (ops : List (Operation α)) :
    Agrees (built ops) (Table.built ops) ∧
      (∀ (o : Operation α) (a b : Handle),
        (Table.built (ops ++ [o])).cell a b = o.effect (Table.built ops).cell a b) ∧
      ∀ x : Handle, (built ops).Mirrored →
        (∀ a b, ((built ops).removeEntity x).get? a b =
          if a = x ∨ b = x then none else (built ops).get? a b) ∧
        ((built ops).removeEntity x).Mirrored ∧
        ((built ops).Symmetric → ((built ops).removeEntity x).Symmetric) := by
  refine ⟨agrees_of_get? (get?_built ops), fun o a b => ?_, fun x hm => ?_⟩
  · rw [Table.built_append, Table.cell_perform]
  · exact ⟨hm.get?_removeEntity x, hm.removeEntity x, fun hs => hs.removeEntity x⟩

/-- Two entities in both orientations and one alone; an entity without a row is taken out. -/
def pairAndDiagonal : List (Operation Nat) :=
  [.set 0 3 5, .entry 3 0 (· + 5), .entry 2 2 (· + 1), .entry 2 2 (· + 1), .remove 7]

/-- Taking out one of the two leaves the other one's row empty, and the diagonal. -/
theorem built_agrees_pairAndDiagonal :
    Agrees (built pairAndDiagonal) (Table.built pairAndDiagonal) ∧
      ((built pairAndDiagonal).removeEntity 3).Mirrored ∧
      ((built pairAndDiagonal).removeEntity 3).get? 2 2 = some 2 := by
  obtain ⟨hagrees, -, hremove⟩ := built_agrees pairAndDiagonal
  obtain ⟨hcells, hmirrored, -⟩ := hremove 3 (by decide)
  refine ⟨hagrees, hmirrored, ?_⟩
  rw [hcells 2 2]
  decide

/-- A cell without an opposite is found by its own row only. -/
example : ((built [.set 0 1 5] : SparseMatrix Nat).removeEntity 1).get? 0 1 = some 5 := by
  decide

end SparseMatrix

end Cochange
