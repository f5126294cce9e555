import Cochange.FeatureEnvy
import Cochange.Proofs.Density.Exact
import Cochange.Proofs.Files.Projection
import Mathlib.Algebra.BigOperators.Group.Finset.Basic
import Mathlib.Algebra.Order.BigOperators.Group.List

/-!
# Sums of couplings

The couplings of an entity are added up file by file while the cells are gone through, in whatever
order. What stands for an entity and a file at the end is the sum of the couplings that were listed
for them (`getElem?_foldl_addCell`), and nothing if there were none.

In exact arithmetic this is the sum of the couplings of the entity to all tracked entities of the
file (`sum_couplingsTo`), since each recorded pair is among the cells once, and what is not recorded
counts as zero.
-/

namespace Cochange

namespace FeatureEnvy

variable {ω : Type} {x : QualifiedId} {path : String}

/-- The couplings of an entity to a file, in the order of the cells. -/
def couplingsTo (cells : List (QualifiedId × QualifiedId × ω)) (x : QualifiedId) (path : String) :
    List ω :=
  (cells.filter fun cell => cell.1 = x ∧ cell.2.1.sourcePath = path).map (·.2.2)

/-- The couplings of an entity to a file are its cells with the entities of the file. -/
theorem mem_couplingsTo {cells : List (QualifiedId × QualifiedId × ω)} {v : ω} :
    v ∈ couplingsTo cells x path ↔ ∃ y, (x, y, v) ∈ cells ∧ y.sourcePath = path := by
  unfold couplingsTo
  simp only [List.mem_map, List.mem_filter, decide_eq_true_eq]
  constructor
  · rintro ⟨⟨x, y, v⟩, ⟨hcell, rfl, hy⟩, rfl⟩
    exact ⟨y, hcell, hy⟩
  · rintro ⟨y, hcell, hy⟩
    exact ⟨(x, y, v), ⟨hcell, rfl, hy⟩, rfl⟩

/-- Which couplings there are to a file does not depend on the order of the cells. -/
theorem couplingsTo_perm {cells cells' : List (QualifiedId × QualifiedId × ω)}
    (h : cells.Perm cells') (x : QualifiedId) (path : String) :
    (couplingsTo cells x path).Perm (couplingsTo cells' x path) :=
  (h.filter _).map _

/-! ## Adding up cell by cell -/

section Totals

variable [Weight ω]

/-- The sums with one more coupling. -/
def addCell (totals : Std.ExtTreeMap QualifiedId (Std.ExtTreeMap String ω))
    (cell : QualifiedId × QualifiedId × ω) :
    Std.ExtTreeMap QualifiedId (Std.ExtTreeMap String ω) :=
  totals.alter cell.1 fun files =>
    some ((files.getD ∅).alter cell.2.1.sourcePath fun sum =>
      some (Weight.add (sum.getD Weight.zero) cell.2.2))

/-- A sum with one more coupling. -/
def addTo (sum : Option ω) (v : ω) : Option ω :=
  some (Weight.add (sum.getD Weight.zero) v)

/-- A cell adds to the sum for its entity and its file, and to no other. -/
theorem getElem?_addCell (totals : Std.ExtTreeMap QualifiedId (Std.ExtTreeMap String ω))
    (cell : QualifiedId × QualifiedId × ω) (x : QualifiedId) (path : String) :
    ((addCell totals cell)[x]?.getD ∅)[path]? =
      if cell.1 = x ∧ cell.2.1.sourcePath = path then addTo (totals[x]?.getD ∅)[path]? cell.2.2
      else (totals[x]?.getD ∅)[path]? := by
  unfold addCell
  rw [Std.ExtTreeMap.getElem?_alter]
  by_cases hx : cell.1 = x
  · subst hx
    rw [if_pos Std.ReflOrd.compare_self, Option.getD_some, Std.ExtTreeMap.getElem?_alter]
    by_cases hy : cell.2.1.sourcePath = path
    · subst hy
      rw [if_pos Std.ReflOrd.compare_self, if_pos ⟨rfl, rfl⟩]
      rfl
    · rw [if_neg fun h => hy (Std.compare_eq_iff_eq.mp h), if_neg fun h => hy h.2]
  · rw [if_neg fun h => hx (Std.compare_eq_iff_eq.mp h), if_neg fun h => hx h.1]

/-- To each sum are added, in the order of the cells, the couplings that are listed for it. -/
theorem getElem?_foldl_addCell (cells : List (QualifiedId × QualifiedId × ω)) (x : QualifiedId)
    (path : String) : ∀ totals : Std.ExtTreeMap QualifiedId (Std.ExtTreeMap String ω),
    ((cells.foldl addCell totals)[x]?.getD ∅)[path]? =
      (couplingsTo cells x path).foldl addTo (totals[x]?.getD ∅)[path]? := by
  induction cells with
  | nil => exact fun totals => rfl
  | cons cell cells ih =>
    intro totals
    rw [List.foldl_cons, ih, getElem?_addCell]
    unfold couplingsTo
    by_cases hcell : cell.1 = x ∧ cell.2.1.sourcePath = path
    · rw [if_pos hcell, List.filter_cons_of_pos (by simpa using hcell), List.map_cons,
        List.foldl_cons]
    · rw [if_neg hcell, List.filter_cons_of_neg (by simpa using hcell)]

/-- The sums for an entity when some cells are added up. -/
def filesOf (cells : List (QualifiedId × QualifiedId × ω)) (x : QualifiedId) :
    Std.ExtTreeMap String ω :=
  (cells.foldl addCell ∅)[x]?.getD ∅

/-- Under a file stands the sum of the couplings to it. -/
theorem getElem?_filesOf (cells : List (QualifiedId × QualifiedId × ω)) (x : QualifiedId)
    (path : String) : (filesOf cells x)[path]? = (couplingsTo cells x path).foldl addTo none := by
  unfold filesOf
  rw [getElem?_foldl_addCell, Std.ExtTreeMap.getElem?_empty]
  show (couplingsTo cells x path).foldl addTo (∅ : Std.ExtTreeMap String ω)[path]? = _
  rw [Std.ExtTreeMap.getElem?_empty]

/-- Couplings to a file are only added up if there are any. -/
theorem exists_cell_of_mem_filesOf {cells : List (QualifiedId × QualifiedId × ω)}
    (h : path ∈ filesOf cells x) : ∃ y v, (x, y, v) ∈ cells ∧ y.sourcePath = path := by
  rw [Std.ExtTreeMap.mem_iff_isSome_getElem?, getElem?_filesOf] at h
  cases hlisted : couplingsTo cells x path with
  | nil =>
    rw [hlisted] at h
    cases h
  | cons v vs =>
    obtain ⟨y, hcell⟩ := mem_couplingsTo.mp (hlisted ▸ List.mem_cons_self)
    exact ⟨y, v, hcell⟩

end Totals

/-! ## Exact sums -/

theorem foldl_addTo_some (vs : List Rat) : ∀ s : Rat,
    vs.foldl addTo (some s) = some (s + vs.sum) := by
  induction vs with
  | nil => exact fun s => congrArg some (add_zero s).symm
  | cons v vs ih =>
    intro s
    rw [List.foldl_cons, List.sum_cons, ← add_assoc]
    exact ih (s + v)

/-- There is a sum if anything is listed for it. -/
theorem getElem?_filesOf_eq_some {cells : List (QualifiedId × QualifiedId × Rat)} {s : Rat} :
    (filesOf cells x)[path]? = some s ↔
      couplingsTo cells x path ≠ [] ∧ (couplingsTo cells x path).sum = s := by
  rw [getElem?_filesOf]
  cases couplingsTo cells x path with
  | nil => exact iff_of_false (fun h => by cases h) fun h => h.1 rfl
  | cons v vs =>
    have hsum : (v :: vs).foldl addTo none = some (v :: vs).sum := by
      rw [List.sum_cons, List.foldl_cons]
      exact (foldl_addTo_some vs (0 + v)).trans (by rw [zero_add])
    rw [hsum, Option.some_inj]
    exact (and_iff_right (List.cons_ne_nil v vs)).symm

instance rightCommutative_addTo : RightCommutative (addTo : Option Rat → Rat → Option Rat) where
  right_comm s v w := congrArg some (add_right_comm (s.getD 0) v w)

/-- In which order the cells are gone through does not matter for the sums. -/
theorem filesOf_perm {cells cells' : List (QualifiedId × QualifiedId × Rat)}
    (h : cells.Perm cells') (x : QualifiedId) : filesOf cells x = filesOf cells' x := by
  refine Std.ExtTreeMap.ext_getElem? fun path => ?_
  rw [getElem?_filesOf, getElem?_filesOf, (couplingsTo_perm h x path).foldl_eq]

end FeatureEnvy

namespace Context

variable {c : Context Rat}

/-- The sum of the couplings of an entity to the tracked entities of a file. -/
def couplingTo (c : Context Rat) (x : QualifiedId) (path : String) : Rat :=
  ((c.idsOf path).map (c.couplingOf x)).sum

/-- No coupling of a well-formed context is negative. -/
theorem couplingOf_nonneg (hw : c.WellFormed) (x y : QualifiedId) : 0 ≤ c.couplingOf x y := by
  rw [couplingOf_eq]
  cases hv : c.couplingCell? x y with
  | none => exact le_refl (0 : Rat)
  | some v =>
    obtain ⟨n, k, l, -, -, -, hbounds, hratio⟩ := hw.counted hv
    rw [Option.getD_some, hratio]
    exact hbounds.coupling_pos.le

theorem couplingTo_nonneg (hw : c.WellFormed) (x : QualifiedId) (path : String) :
    0 ≤ c.couplingTo x path := by
  refine List.sum_nonneg fun v hv => ?_
  obtain ⟨y, -, rfl⟩ := List.mem_map.mp hv
  exact couplingOf_nonneg hw x y

/-- What is listed for an entity and a file are its couplings to different entities of the file. -/
theorem exists_listed (hw : c.WellFormed) (hc : c.interner.Valid) (x : QualifiedId)
    (path : String) : ∃ ys : List QualifiedId, ys.Nodup ∧
      (∀ y, y ∈ ys ↔ y ∈ c.idsOf path ∧ (c.couplingCell? x y).isSome = true) ∧
      FeatureEnvy.couplingsTo c.cells x path = ys.map (c.couplingOf x) := by
  refine ⟨(c.cells.filter fun cell => cell.1 = x ∧ cell.2.1.sourcePath = path).map (·.2.1), ?_,
    fun y => ?_, ?_⟩
  · refine List.pairwise_map.mpr ?_
    refine ((distinct_cells hc).filter _).imp_of_mem fun {p q} hp hq hne he => hne ?_
    rw [List.mem_filter, decide_eq_true_eq] at hp hq
    exact Prod.ext (hp.2.1.trans hq.2.1.symm) he
  · simp only [List.mem_map, List.mem_filter, decide_eq_true_eq, Option.isSome_iff_exists,
      ← mem_cells hc, mem_idsOf]
    constructor
    · rintro ⟨⟨x, y, v⟩, ⟨hcell, rfl, hy⟩, rfl⟩
      have htracked := (hw.recorded ((mem_cells hc).mp hcell)).2.2
      exact ⟨⟨(mem_entityIds hc).mpr htracked, hy⟩, v, hcell⟩
    · rintro ⟨⟨-, hy⟩, v, hcell⟩
      exact ⟨(x, y, v), ⟨hcell, rfl, hy⟩, rfl⟩
  · unfold FeatureEnvy.couplingsTo
    rw [List.map_map]
    refine List.map_congr_left fun cell hcell => ?_
    rw [List.mem_filter, decide_eq_true_eq] at hcell
    obtain ⟨hcell, rfl, -⟩ := hcell
    show cell.2.2 = c.couplingOf cell.1 cell.2.1
    rw [couplingOf_eq, (mem_cells hc).mp hcell]
    rfl

/-- The listed couplings add up to the sum over all tracked entities of the file. -/
theorem sum_couplingsTo (hw : c.WellFormed) (hc : c.interner.Valid) (x : QualifiedId)
    (path : String) : (FeatureEnvy.couplingsTo c.cells x path).sum = c.couplingTo x path := by
  obtain ⟨ys, hnodup, hys, hlisted⟩ := exists_listed hw hc x path
  unfold couplingTo
  rw [hlisted, ← List.sum_toFinset _ hnodup,
    ← List.sum_toFinset _ ((c.idsOf_sorted path).nodup_map.of_map id)]
  refine Finset.sum_subset (fun y hy => ?_) fun y hy hnot => ?_
  · rw [List.mem_toFinset] at hy ⊢
    exact ((hys y).mp hy).1
  · -- what is not listed is not recorded
    rw [List.mem_toFinset] at hy hnot
    have hnone : c.couplingCell? x y = none :=
      Option.not_isSome_iff_eq_none.mp fun h => hnot ((hys y).mpr ⟨hy, h⟩)
    rw [couplingOf_eq, hnone]
    rfl

end Context

end Cochange
