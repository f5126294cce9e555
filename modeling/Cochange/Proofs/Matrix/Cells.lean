import Cochange.SparseMatrix

/-!
# The cells of a matrix

Every cell is listed once, so that the listing tells how many cells there are (`length_cells`) and
whether there are any (`isEmpty_cells`).

An entity is taken out by way of its own row: of its column, the cells that go are those opposite
to a cell of the row. If cells are recorded in both orientations (`Mirrored`), that is all of them
(`Mirrored.get?_removeEntity`), whatever values they have. A matrix whose opposite cells also hold
the same (`Symmetric`) stays so.
-/

namespace Cochange

namespace SparseMatrix

variable {α : Type}

/-- A matrix is told by its cells and by how many rows it has room for. -/
theorem ext_get? {m m' : SparseMatrix α}
    (hrows : m.rows.size = m'.rows.size) (hcells : ∀ x y, m.get? x y = m'.get? x y) : m = m' := by
  obtain ⟨rows⟩ := m
  obtain ⟨rows'⟩ := m'
  refine congrArg SparseMatrix.mk (Array.ext hrows fun x hx hx' => ?_)
  refine Std.ExtTreeMap.ext_getElem? fun y => ?_
  have hcell := hcells x y
  unfold get? rowMap at hcell
  rwa [Array.getElem?_eq_getElem hx, Array.getElem?_eq_getElem hx', Option.getD_some,
    Option.getD_some] at hcell

/-! ## The listing -/

section Listing

variable (m : SparseMatrix α)

/-- No cell of a row is listed twice. -/
theorem nodup_row (x : Handle) : ((m.row x).map (·.1)).Nodup := by
  unfold row
  refine List.pairwise_map.mpr (Std.ExtTreeMap.distinct_keys_toList.imp fun hne he => ?_)
  exact hne (Std.compare_eq_iff_eq.mpr he)

/-- No cell is listed twice. -/
theorem distinct_cells : m.cells.Pairwise fun a b => (a.1, a.2.1) ≠ (b.1, b.2.1) := by
  unfold cells
  rw [List.pairwise_flatMap]
  constructor
  · intro x _
    rw [List.pairwise_map]
    exact (List.pairwise_map.mp (m.nodup_row x)).imp fun hne he => hne (Prod.ext_iff.mp he).2
  · refine List.nodup_range.imp fun hne a ha b hb he => ?_
    obtain ⟨r, -, rfl⟩ := List.mem_map.mp ha
    obtain ⟨r', -, rfl⟩ := List.mem_map.mp hb
    exact hne (Prod.ext_iff.mp he).1

theorem row_of_lt {x : Nat} (hx : x < m.rows.size) : m.row x = m.rows[x].toList := by
  unfold row rowMap
  rw [Array.getElem?_eq_getElem hx, Option.getD_some]

/-- A matrix lists as many cells as it counts. -/
theorem length_cells : m.cells.length = m.size := by
  have hrows : (List.range m.rows.size).map (fun x => (m.row x).length) =
      m.rows.toList.map (·.size) := by
    refine List.ext_getElem (by simp) fun x hx hx' => ?_
    rw [List.getElem_map, List.getElem_map, List.getElem_range, Array.getElem_toList,
      m.row_of_lt (by simpa using hx), Std.ExtTreeMap.length_toList]
  unfold cells size
  simp only [List.length_flatMap, List.length_map]
  rw [hrows, ← Array.foldl_toList, List.sum_eq_foldl_nat, List.foldl_map]

theorem isEmpty_cells : m.cells.isEmpty = m.isEmpty := by
  unfold cells isEmpty
  rw [Bool.eq_iff_iff, List.isEmpty_iff, List.flatMap_eq_nil_iff, Array.all_eq_true]
  refine forall_congr' fun x => ?_
  rw [List.mem_range, List.map_eq_nil_iff]
  refine forall_congr' fun hx => ?_
  rw [m.row_of_lt hx, ← List.isEmpty_iff, Std.ExtTreeMap.isEmpty_toList]

end Listing

/-! ## Both orientations -/

/-- If a cell is recorded, so is the opposite one. -/
def Mirrored (m : SparseMatrix α) : Prop :=
  ∀ x y, (m.get? x y).isSome = true → (m.get? y x).isSome = true

/-- Every cell holds what the opposite one holds. -/
def Symmetric (m : SparseMatrix α) : Prop :=
  ∀ x y, m.get? x y = m.get? y x

/-- Being recorded in both orientations can be told from the listing. -/
theorem mirrored_iff_cells {m : SparseMatrix α} :
    m.Mirrored ↔ ∀ c ∈ m.cells, (m.get? c.2.1 c.1).isSome = true := by
  constructor
  · rintro hm ⟨x, y, v⟩ hc
    exact hm x y (Option.isSome_of_eq_some (mem_cells.mp hc))
  · intro hm x y hs
    obtain ⟨v, hv⟩ := Option.isSome_iff_exists.mp hs
    exact hm (x, y, v) (mem_cells.mpr hv)

instance (m : SparseMatrix α) : Decidable m.Mirrored :=
  decidable_of_iff' _ mirrored_iff_cells

namespace Mirrored

variable {m : SparseMatrix α}

/-- The cells of an entity are taken out in both orientations, and no others. -/
theorem get?_removeEntity (hm : m.Mirrored) (x a b : Handle) :
    (m.removeEntity x).get? a b = if a = x ∨ b = x then none else m.get? a b := by
  rw [SparseMatrix.get?_removeEntity]
  by_cases ha : a = x
  · rw [if_pos (Or.inl ha), if_pos (Or.inl ha)]
  · by_cases hb : b = x
    · rw [if_pos (Or.inr hb)]
      split
      next => rfl
      next hn =>
        -- the cell opposite to one that is not recorded is not recorded either
        rw [hb, ← Option.not_isSome_iff_eq_none]
        exact fun hs => hn (Or.inr ⟨hb, hm a x hs⟩)
    · rw [if_neg (by simp [ha, hb]), if_neg (by simp [ha, hb])]

/-- Taking an entity out of both orientations keeps them in step. -/
theorem removeEntity (hm : m.Mirrored) (x : Handle) : (m.removeEntity x).Mirrored := by
  intro a b hs
  rw [hm.get?_removeEntity] at hs ⊢
  split at hs
  next => exact absurd hs (by simp)
  next hx =>
    rw [if_neg fun h => hx h.symm]
    exact hm a b hs

end Mirrored

theorem symmetric_empty : (empty : SparseMatrix α).Symmetric := by
  intro x y
  rw [get?_empty, get?_empty]

namespace Symmetric

variable {m : SparseMatrix α}

theorem mirrored (hm : m.Symmetric) : m.Mirrored := by
  intro x y hs
  rwa [hm y x]

theorem removeEntity (hm : m.Symmetric) (x : Handle) : (m.removeEntity x).Symmetric := by
  intro a b
  rw [hm.mirrored.get?_removeEntity, hm.mirrored.get?_removeEntity, hm a b]
  simp only [or_comm]

end Symmetric

end SparseMatrix

end Cochange
