import Cochange.Context.Projection
import Cochange.Proofs.Counting.Contexts
import Cochange.Proofs.Counting.Recount

/-!
# Contexts by their ids

A context keeps everything under handles, and which handle an entity has depends on the whole
history. What it tells about entities is said here by their ids: whether and how often an entity
was changed (`count?`), and what is recorded for a pair (`jointCell?`, `couplingCell?`).

Two contexts are alike for a source file if they tell the same about its entities
(`Context.Alike`). Then all answers about the file are the same, and filtering keeps them so
(`Alike.filter`). Contexts of two counts are alike as soon as the counts are (`alike_context`).
-/

namespace Cochange

namespace Context

variable {ω : Type}

/-- How often an entity was changed, if it is tracked. -/
def count? (c : Context ω) (x : QualifiedId) : Option Nat :=
  (c.interner.get? x).bind fun h => c.changes[h]?

/-- What a matrix over the handles of a context records for two entities. -/
def cell? {α : Type} (c : Context ω) (m : SparseMatrix α) (x y : QualifiedId) : Option α :=
  (c.interner.get? x).bind fun a => (c.interner.get? y).bind fun b => m.get? a b

/-- How often two entities were changed together, if the pair is recorded. -/
def jointCell? (c : Context ω) (x y : QualifiedId) : Option Nat :=
  c.cell? c.joint x y

/-- The coupling of two entities, if the pair is recorded. -/
def couplingCell? (c : Context ω) (x y : QualifiedId) : Option ω :=
  c.cell? c.coupling x y

/-! ## Answers in terms of ids -/

variable {c : Context ω} {x y : QualifiedId}

/-- An entity is tracked if it has a count. -/
theorem contains_eq (c : Context ω) (x : QualifiedId) : c.contains x = (c.count? x).isSome := by
  unfold contains tracked? count?
  cases c.interner.get? x with
  | none => rfl
  | some h =>
    rw [Option.filter_some, Std.ExtTreeMap.contains_eq_isSome_getElem?, Option.bind_some]
    cases c.changes[h]? <;> rfl

theorem changeCount_eq (c : Context ω) (x : QualifiedId) :
    c.changeCount x = (c.count? x).getD 0 := by
  unfold changeCount tracked? count?
  cases c.interner.get? x with
  | none => rfl
  | some h =>
    rw [Option.filter_some, Std.ExtTreeMap.contains_eq_isSome_getElem?, Option.bind_some]
    cases hh : c.changes[h]? with
    | none => rfl
    | some n => exact congrArg (Option.getD · 0) hh

theorem jointChangeCount_eq (c : Context ω) (x y : QualifiedId) :
    c.jointChangeCount x y = (c.jointCell? x y).getD 0 := by
  unfold jointChangeCount jointCell? cell?
  cases c.interner.get? x with
  | none => rfl
  | some a => cases c.interner.get? y <;> rfl

theorem couplingOf_eq [Weight ω] (c : Context ω) (x y : QualifiedId) :
    c.couplingOf x y = (c.couplingCell? x y).getD Weight.zero := by
  unfold couplingOf couplingCell? cell?
  cases c.interner.get? x with
  | none => rfl
  | some a => cases c.interner.get? y <;> rfl

/-- The entities that are listed are the tracked ones. -/
theorem mem_entityIds (hc : c.interner.Valid) : x ∈ c.entityIds ↔ c.contains x = true := by
  rw [contains_eq, entityIds, mem_ofList_iff, List.mem_filterMap, count?]
  constructor
  · rintro ⟨h, hh, hx⟩
    rw [Std.ExtTreeMap.mem_keys, Std.ExtTreeMap.mem_iff_isSome_getElem?] at hh
    rw [(hc x h).mpr hx]
    exact hh
  · intro hx
    obtain ⟨n, hn⟩ := Option.isSome_iff_exists.mp hx
    obtain ⟨h, hh, hn⟩ := Option.bind_eq_some_iff.mp hn
    refine ⟨h, ?_, (hc x h).mp hh⟩
    rw [Std.ExtTreeMap.mem_keys, Std.ExtTreeMap.mem_iff_isSome_getElem?, hn]
    rfl

/-- The neighbours of a tracked entity are those with which it has a recorded coupling. -/
theorem mem_neighbors (hc : c.interner.Valid) {v : ω} :
    (y, v) ∈ c.neighbors x ↔ c.contains x = true ∧ c.couplingCell? x y = some v := by
  unfold neighbors contains couplingCell? cell?
  cases ht : c.tracked? x with
  | none => exact iff_of_false List.not_mem_nil fun h => by cases h.1
  | some h =>
    obtain ⟨hx, -⟩ := Option.filter_eq_some_iff.mp ht
    rw [List.mem_mergeSort, List.mem_filterMap, hx, Option.bind_some]
    constructor
    · rintro ⟨⟨b, w⟩, hrow, hb⟩
      obtain ⟨y', hy', he⟩ := Option.map_eq_some_iff.mp hb
      cases he
      rw [(hc y b).mpr hy']
      exact ⟨rfl, SparseMatrix.mem_row.mp hrow⟩
    · rintro ⟨-, hcell⟩
      obtain ⟨b, hb, hcell⟩ := Option.bind_eq_some_iff.mp hcell
      refine ⟨(b, v), SparseMatrix.mem_row.mpr hcell, ?_⟩
      rw [(hc y b).mp hb]
      rfl

/-- Neighbours are listed in order, each of them once. -/
theorem strictlySorted_neighbors (hc : c.interner.Valid) (x : QualifiedId) :
    StrictlySorted (·.1) (c.neighbors x) := by
  unfold neighbors
  split
  next => exact List.Pairwise.nil
  next h _ =>
    refine strictlySorted_mergeSort (List.Pairwise.filterMap _ (R := fun a b => a.1 ≠ b.1) ?_ ?_)
    · intro r r' hne a ha b hb he
      obtain ⟨z, hz, rfl⟩ := Option.map_eq_some_iff.mp ha
      obtain ⟨z', hz', rfl⟩ := Option.map_eq_some_iff.mp hb
      -- two handles of one id are the same handle
      cases he
      have hr := (hc z r.1).mpr hz
      rw [(hc z r'.1).mpr hz'] at hr
      exact hne (Option.some.inj hr).symm
    · exact Std.ExtTreeMap.distinct_keys_toList.imp fun hne he =>
        hne (Std.compare_eq_iff_eq.mpr he)

/-! ## Contexts that agree on a source file -/

/-- Two contexts that tell the same about the entities of a source file. -/
structure Alike (path : String) (c c' : Context ω) : Prop where
  interner : c.interner.Valid
  interner' : c'.interner.Valid
  count? : ∀ x : QualifiedId, x.sourcePath = path → c.count? x = c'.count? x
  jointCell? : ∀ x y : QualifiedId, x.sourcePath = path → y.sourcePath = path →
    c.jointCell? x y = c'.jointCell? x y
  couplingCell? : ∀ x y : QualifiedId, x.sourcePath = path → y.sourcePath = path →
    c.couplingCell? x y = c'.couplingCell? x y

namespace Alike

variable {path : String} {c' : Context ω}

/-- Contexts that are alike on a file track the same entities of it. -/
theorem contains (h : Alike path c c') (hx : x.sourcePath = path) :
    c.contains x = c'.contains x := by
  rw [contains_eq, contains_eq, h.count? x hx]

/-- Contexts that are alike on a file have the same counts there. -/
theorem changeCount (h : Alike path c c') (hx : x.sourcePath = path) :
    c.changeCount x = c'.changeCount x := by
  rw [changeCount_eq, changeCount_eq, h.count? x hx]

/-- Contexts that are alike on a file have the same joint counts there. -/
theorem jointChangeCount (h : Alike path c c') (hx : x.sourcePath = path)
    (hy : y.sourcePath = path) : c.jointChangeCount x y = c'.jointChangeCount x y := by
  rw [jointChangeCount_eq, jointChangeCount_eq, h.jointCell? x y hx hy]

end Alike

/-! ## Filtered contexts -/

variable [Weight ω]

/-- The counts that stay are those that reach the threshold. -/
theorem count?_filter (c : Context ω) (minRevisions : Nat) (minCoupling : ω) (x : QualifiedId) :
    (c.filter minRevisions minCoupling).count? x =
      (c.count? x).filter fun n => minRevisions ≤ n := by
  show ((c.interner.get? x).bind fun h => (c.changes.filter _)[h]?) = _
  unfold count?
  cases c.interner.get? x with
  | none => rfl
  | some h => exact Std.ExtTreeMap.getElem?_filter'

/-- Whether a recorded pair stays: its entities do, and it reaches the thresholds itself. -/
def passes (c : Context ω) (minRevisions : Nat) (minCoupling : ω) (x y : QualifiedId)
    (coupling : ω) : Bool :=
  minRevisions ≤ (c.jointCell? x y).getD 0 && Weight.le minCoupling coupling &&
    ((c.count? x).filter fun n => minRevisions ≤ n).isSome &&
    ((c.count? y).filter fun n => minRevisions ≤ n).isSome

/-- What stays of the matrices, in the form in which the filter keeps either of them. -/
theorem cell?_filter {α : Type} (c : Context ω) (minRevisions : Nat) (minCoupling : ω)
    (f : Handle → Handle → ω → α) (x y : QualifiedId) (g : ω → α)
    (hfg : ∀ a b : Handle, c.interner.get? x = some a → c.interner.get? y = some b → f a b = g) :
    c.cell? (c.coupling.filterMap fun a b v =>
        if c.keepsPair (c.changes.filter fun _ n => minRevisions ≤ n) minRevisions minCoupling a b v
        then some (f a b v) else none) x y =
      (c.couplingCell? x y).bind fun v =>
        if c.passes minRevisions minCoupling x y v then some (g v) else none := by
  unfold couplingCell? passes jointCell? count? cell?
  cases hx : c.interner.get? x with
  | none => rfl
  | some a =>
    cases hy : c.interner.get? y with
    | none => rfl
    | some b =>
      simp only [Option.bind_some, SparseMatrix.get?_filterMap, keepsPair,
        Std.ExtTreeMap.contains_eq_isSome_getElem?, Std.ExtTreeMap.getElem?_filter',
        hfg a b hx hy]

/-- A joint count stays if its pair passes the thresholds. -/
theorem jointCell?_filter (c : Context ω) (minRevisions : Nat) (minCoupling : ω)
    (x y : QualifiedId) :
    (c.filter minRevisions minCoupling).jointCell? x y =
      (c.couplingCell? x y).bind fun v =>
        if c.passes minRevisions minCoupling x y v then some ((c.jointCell? x y).getD 0)
        else none := by
  refine c.cell?_filter minRevisions minCoupling (fun a b _ => (c.joint.get? a b).getD 0) x y
    (fun _ => (c.jointCell? x y).getD 0) ?_
  intro a b ha hb
  unfold jointCell? cell?
  rw [ha, hb]
  rfl

/-- A coupling stays if its pair passes the thresholds. -/
theorem couplingCell?_filter (c : Context ω) (minRevisions : Nat) (minCoupling : ω)
    (x y : QualifiedId) :
    (c.filter minRevisions minCoupling).couplingCell? x y =
      (c.couplingCell? x y).bind fun v =>
        if c.passes minRevisions minCoupling x y v then some v else none :=
  c.cell?_filter minRevisions minCoupling (fun _ _ v => v) x y id fun _ _ _ _ => rfl

section Congr

variable {c' : Context ω}

/-- Whether a pair stays depends on what is kept of its entities and of itself. -/
theorem passes_congr (hx : c.count? x = c'.count? x) (hy : c.count? y = c'.count? y)
    (hjoint : c.jointCell? x y = c'.jointCell? x y) (minRevisions : Nat) (minCoupling : ω) :
    c.passes minRevisions minCoupling x y = c'.passes minRevisions minCoupling x y := by
  unfold passes
  rw [hx, hy, hjoint]

/-- What becomes of a joint count depends on the counts and the cells of its pair only. -/
theorem jointCell?_filter_congr (hx : c.count? x = c'.count? x) (hy : c.count? y = c'.count? y)
    (hjoint : c.jointCell? x y = c'.jointCell? x y)
    (hcoupling : c.couplingCell? x y = c'.couplingCell? x y) (minRevisions : Nat)
    (minCoupling : ω) :
    (c.filter minRevisions minCoupling).jointCell? x y =
      (c'.filter minRevisions minCoupling).jointCell? x y := by
  rw [jointCell?_filter, jointCell?_filter, passes_congr hx hy hjoint, hjoint, hcoupling]

/-- What becomes of a coupling depends on the counts and the cells of its pair only. -/
theorem couplingCell?_filter_congr (hx : c.count? x = c'.count? x) (hy : c.count? y = c'.count? y)
    (hjoint : c.jointCell? x y = c'.jointCell? x y)
    (hcoupling : c.couplingCell? x y = c'.couplingCell? x y) (minRevisions : Nat)
    (minCoupling : ω) :
    (c.filter minRevisions minCoupling).couplingCell? x y =
      (c'.filter minRevisions minCoupling).couplingCell? x y := by
  rw [couplingCell?_filter, couplingCell?_filter, passes_congr hx hy hjoint, hcoupling]

end Congr

namespace Alike

variable {path : String} {c' : Context ω}

/-- Contexts that are alike on a file have the same couplings there. -/
theorem couplingOf (h : Alike path c c') (hx : x.sourcePath = path) (hy : y.sourcePath = path) :
    c.couplingOf x y = c'.couplingOf x y := by
  rw [couplingOf_eq, couplingOf_eq, h.couplingCell? x y hx hy]

/-- Thresholds leave the same of both. -/
theorem filter (h : Alike path c c') (minRevisions : Nat) (minCoupling : ω) :
    Alike path (c.filter minRevisions minCoupling) (c'.filter minRevisions minCoupling) where
  interner := h.interner
  interner' := h.interner'
  count? x hx := by rw [count?_filter, count?_filter, h.count? x hx]
  jointCell? x y hx hy :=
    jointCell?_filter_congr (h.count? x hx) (h.count? y hy) (h.jointCell? x y hx hy)
      (h.couplingCell? x y hx hy) minRevisions minCoupling
  couplingCell? x y hx hy :=
    couplingCell?_filter_congr (h.count? x hx) (h.count? y hy) (h.jointCell? x y hx hy)
      (h.couplingCell? x y hx hy) minRevisions minCoupling

end Alike

end Context

/-! ## Contexts of counts -/

namespace ChangeCounter

variable {ω : Type} [Weight ω] {c c' : ChangeCounter} {path : String}

/-- Only what was changed is tracked. -/
theorem count?_context (hc : Sound (c, ∅)) (x : QualifiedId) :
    (c.context : Context ω).count? x = cellOf (c.changeCount x) := by
  rw [changeCount_eq]
  show ((c.interner.get? x).bind fun h => c.changes[h]?) = _
  cases hn : (c.interner.get? x).bind fun h => c.changes[h]? with
  | none => rfl
  | some n =>
    obtain ⟨h, -, hh⟩ := Option.bind_eq_some_iff.mp hn
    have hpos := (hc.changes_bound h n hh).1
    exact (if_neg (Nat.ne_of_gt hpos)).symm

/-- The coupling of two entities is the share of the joint changes among the changes of either. -/
theorem couplingCell?_context (hc : Sound (c, ∅)) (x y : QualifiedId) :
    (c.context : Context ω).couplingCell? x y =
      (c.jointCell? x y).map fun n => Weight.ratio n (c.changeCount x + c.changeCount y - n) := by
  rw [changeCount_eq, changeCount_eq]
  unfold jointCell?
  show ((c.interner.get? x).bind fun a => (c.interner.get? y).bind fun b =>
    (c.joint.filterMap fun x y n => some (c.couplingOf x y n)).get? a b) = _
  cases c.interner.get? x with
  | none => rfl
  | some a =>
    cases c.interner.get? y with
    | none => rfl
    | some b =>
      simp only [Option.bind_some, SparseMatrix.get?_filterMap]
      cases hn : c.joint.get? a b with
      | none => rfl
      | some n =>
        obtain ⟨hpos, k, l, hk, hl, hnk, hnl⟩ := hc.changes_of_joint hn
        have hlt : n < k + l := by omega
        rw [hk, hl]
        exact congrArg some (couplingOf_eq hk hl hlt)

/-- An entity makes no pair with itself. -/
theorem jointCell?_self (hc : Sound (c, ∅)) (x : QualifiedId) : c.jointCell? x x = none := by
  unfold jointCell?
  cases c.interner.get? x with
  | none => rfl
  | some a => exact hc.joint_irrefl a

/-- To agree on a pair, counts have to agree on it if its entities differ. -/
theorem jointCell?_eq_of_ne (hc : Sound (c, ∅)) (hc' : Sound (c', ∅)) {x y : QualifiedId}
    (h : x ≠ y → c.jointCell? x y = c'.jointCell? x y) : c.jointCell? x y = c'.jointCell? x y := by
  by_cases hxy : x = y
  · rw [hxy, jointCell?_self hc, jointCell?_self hc']
  · exact h hxy

/-- Counts that agree on the entities of a file and on their pairs give contexts that do. -/
theorem alike_context (hc : Sound (c, ∅)) (hc' : Sound (c', ∅))
    (hcount : ∀ x : QualifiedId, x.sourcePath = path → c.changeCount x = c'.changeCount x)
    (hjoint : ∀ x y : QualifiedId, x ≠ y → x.sourcePath = path → y.sourcePath = path →
      c.jointCell? x y = c'.jointCell? x y) :
    Context.Alike path (c.context : Context ω) c'.context := by
  have hcell : ∀ x y : QualifiedId, x.sourcePath = path → y.sourcePath = path →
      c.jointCell? x y = c'.jointCell? x y :=
    fun x y hx hy => jointCell?_eq_of_ne hc hc' fun hxy => hjoint x y hxy hx hy
  refine ⟨hc.interner, hc'.interner, ?_, hcell, ?_⟩
  · intro x hx
    rw [count?_context hc, count?_context hc', hcount x hx]
  · intro x y hx hy
    rw [couplingCell?_context hc, couplingCell?_context hc', hcount x hx, hcount y hy,
      hcell x y hx hy]

end ChangeCounter

end Cochange
