import Cochange.Proofs.Counting.Numbering
import Cochange.Proofs.Files.Projection

/-!
# Handles in contexts

A context looks up the ids of handles, and leaves out what has none. That this never happens is
said as for the heap: the listings are written down once more, so that they give nothing as soon as
a handle stands for no id. As long as all handles that a context uses are below the number of ids
(`Covered`), these listings give what the others do (`Covered.looksUp`), and thresholds keep this
(`Covered.filter`), since they take handles out and never put one in.
-/

namespace Cochange

/-- If nothing is left out, then nothing is missing. -/
theorem mapM_eq_some_filterMap {α β : Type} {f : α → Option β} {as : List α}
    (h : ∀ a ∈ as, (f a).isSome = true) : as.mapM f = some (as.filterMap f) := by
  induction as with
  | nil => rfl
  | cons a as ih =>
    obtain ⟨ha, has⟩ := List.forall_mem_cons.mp h
    obtain ⟨b, hb⟩ := Option.isSome_iff_exists.mp ha
    rw [List.mapM_cons, hb, ih has, List.filterMap_cons_some hb]
    rfl

theorem exists_of_mem_keys {counts : Std.ExtTreeMap Handle Nat} {h : Handle}
    (hh : h ∈ counts.keys) : ∃ n, counts[h]? = some n := by
  rw [Std.ExtTreeMap.mem_keys, Std.ExtTreeMap.mem_iff_isSome_getElem?] at hh
  exact Option.isSome_iff_exists.mp hh

namespace SparseMatrix

variable {α β : Type} {m : SparseMatrix α} {n : Nat}

/-- Whether cells are recorded in rows and columns below `n` only. -/
def Below (m : SparseMatrix α) (n : Nat) : Prop :=
  ∀ (x y : Nat) v, m.get? x y = some v → x < n ∧ y < n

/-- Giving cells other values records none beyond the bound. -/
theorem Below.filterMap (hm : m.Below n) (f : Handle → Handle → α → Option β) :
    (m.filterMap f).Below n := by
  intro x y w hw
  rw [get?_filterMap] at hw
  obtain ⟨v, hv, -⟩ := Option.bind_eq_some_iff.mp hw
  exact hm x y v hv

end SparseMatrix

namespace Context

variable {ω : Type}

/-! ## Listings that look up each handle -/

/-- The tracked entities, if all their handles stand for ids. -/
def checkedEntityIds (c : Context ω) : Option (Std.ExtTreeSet QualifiedId) :=
  (c.changes.keys.mapM c.interner.resolve?).map fun ids => Std.ExtTreeSet.ofList ids

/-- The neighbours of an entity, if all their handles stand for ids. -/
def checkedNeighbors (c : Context ω) (id : QualifiedId) : Option (List (QualifiedId × ω)) :=
  match c.tracked? id with
  | none => some []
  | some h =>
    let found := (c.coupling.row h).mapM fun r =>
      (c.interner.resolve? r.1).map fun other => (other, r.2)
    found.map fun ns => ns.mergeSort fun x y => (compare x.1 y.1).isLE

/-- All recorded couplings, if both handles of each stand for ids. -/
def checkedCells (c : Context ω) : Option (List (QualifiedId × QualifiedId × ω)) :=
  c.coupling.cells.mapM fun cell => do
    let a ← c.interner.resolve? cell.1
    let b ← c.interner.resolve? cell.2.1
    return (a, b, cell.2.2)

/-- Whether no listing of a context meets a handle that stands for no id. -/
structure LooksUp (c : Context ω) : Prop where
  entityIds : c.checkedEntityIds = some c.entityIds
  neighbors : ∀ x, c.checkedNeighbors x = some (c.neighbors x)
  cells : c.checkedCells = some c.cells

/-! ## Handles below the number of ids -/

/-- Whether the handles of tracked entities and of recorded cells are below the number of ids. -/
structure Covered (c : Context ω) : Prop where
  changes : ∀ (h : Nat) n, c.changes[h]? = some n → h < c.interner.size
  joint : c.joint.Below c.interner.size
  coupling : c.coupling.Below c.interner.size

/-- What holds of the handles of a context whose ids are those of `t`. -/
structure NumberedBy (c : Context ω) (t : Interner) : Prop where
  interner : c.interner = t
  covered : c.Covered
  looksUp : c.LooksUp

variable {c : Context ω}

/-- Listing the tracked entities meets known handles only. -/
theorem Covered.checkedEntityIds_eq (hc : c.Covered) : c.checkedEntityIds = some c.entityIds := by
  unfold checkedEntityIds entityIds
  rw [mapM_eq_some_filterMap]
  · rfl
  · intro h hh
    obtain ⟨n, hn⟩ := exists_of_mem_keys hh
    exact Interner.isSome_resolve?.mpr (hc.changes h n hn)

/-- Listing neighbours meets known handles only. -/
theorem Covered.checkedNeighbors_eq (hc : c.Covered) (id : QualifiedId) :
    c.checkedNeighbors id = some (c.neighbors id) := by
  unfold checkedNeighbors neighbors
  cases c.tracked? id with
  | none => rfl
  | some h =>
    dsimp only
    rw [mapM_eq_some_filterMap]
    · rfl
    · intro r hr
      obtain ⟨-, hlt⟩ := hc.coupling h r.1 r.2 (SparseMatrix.mem_row.mp hr)
      rw [Option.isSome_map]
      exact Interner.isSome_resolve?.mpr hlt

/-- Listing the cells meets known handles only. -/
theorem Covered.checkedCells_eq (hc : c.Covered) : c.checkedCells = some c.cells := by
  have hboth : ∀ cell ∈ c.coupling.cells, ∃ a b, c.interner.resolve? cell.1 = some a ∧
      c.interner.resolve? cell.2.1 = some b := by
    intro cell hcell
    obtain ⟨hx, hy⟩ := hc.coupling _ _ _ (SparseMatrix.mem_cells.mp hcell)
    obtain ⟨a, ha⟩ := Option.isSome_iff_exists.mp (Interner.isSome_resolve?.mpr hx)
    obtain ⟨b, hb⟩ := Option.isSome_iff_exists.mp (Interner.isSome_resolve?.mpr hy)
    exact ⟨a, b, ha, hb⟩
  unfold checkedCells cells
  rw [mapM_eq_some_filterMap]
  · congr 1
    refine List.filterMap_congr fun cell hcell => ?_
    obtain ⟨a, b, ha, hb⟩ := hboth cell hcell
    rw [ha, hb]
    rfl
  · intro cell hcell
    obtain ⟨a, b, ha, hb⟩ := hboth cell hcell
    rw [ha, hb]
    rfl

theorem Covered.looksUp (hc : c.Covered) : c.LooksUp :=
  ⟨hc.checkedEntityIds_eq, hc.checkedNeighbors_eq, hc.checkedCells_eq⟩

variable [Weight ω]

/-- Thresholds put no handle in. -/
theorem Covered.filter (hc : c.Covered) (minRevisions : Nat) (minCoupling : ω) :
    (c.filter minRevisions minCoupling).Covered where
  changes h n hn := by
    change (c.changes.filter fun _ n => minRevisions ≤ n)[h]? = some n at hn
    rw [Std.ExtTreeMap.getElem?_filter'] at hn
    exact hc.changes h n (Option.filter_eq_some_iff.mp hn).1
  joint := hc.coupling.filterMap _
  coupling := hc.coupling.filterMap _

/-- Filters, one after the other, keep all handles known. -/
theorem Covered.foldl_filter (fs : List (Nat × ω)) {c : Context ω} (hc : c.Covered) :
    (fs.foldl (fun c f => c.filter f.1 f.2) c).Covered := by
  induction fs generalizing c with
  | nil => exact hc
  | cons f fs ih => exact ih (hc.filter f.1 f.2)

end Context

end Cochange
