import Cochange.Proofs.Files.Contexts

/-!
# Contexts that give the same answers

What a context answers depends on which entities are tracked and how often each was changed, and
on what is recorded for each pair; not on the handles under which this is kept. So two contexts
that agree about ids (`Context.Same`) give the same answers, lists included
(`Same.sameAnswers`), and go on to do so when thresholds are applied (`Same.filter`).

That the list of coupled pairs is among the answers takes an order in which no two pairs are equal.
The order of pairs is one as soon as couplings are put in a total order (`eq_of_pairOrder_eq`).
-/

namespace Cochange

namespace Context

variable {ω : Type}

/-! ## Recorded pairs -/

section Pairs

variable {c : Context ω} {a b : QualifiedId} {v : ω}

/-- The ids of a cell. -/
theorem resolve_cell (t : Interner) (cell : Handle × Handle × ω) :
    (match t.resolve? cell.1, t.resolve? cell.2.1 with
      | some a, some b => some (a, b, cell.2.2)
      | _, _ => none) = some (a, b, v) ↔
    t.resolve? cell.1 = some a ∧ t.resolve? cell.2.1 = some b ∧ cell.2.2 = v := by
  cases t.resolve? cell.1 with
  | none => simp
  | some a => cases t.resolve? cell.2.1 <;> simp

/-- The cells are listed under their ids. -/
theorem mem_cells (hc : c.interner.Valid) :
    (a, b, v) ∈ c.cells ↔ c.couplingCell? a b = some v := by
  unfold cells couplingCell? cell?
  simp only [List.mem_filterMap, Option.bind_eq_some_iff]
  constructor
  · rintro ⟨⟨x, y, w⟩, hcell, hids⟩
    obtain ⟨ha, hb, rfl⟩ := (resolve_cell c.interner (x, y, w)).mp hids
    exact ⟨x, (hc a x).mpr ha, y, (hc b y).mpr hb, SparseMatrix.mem_cells.mp hcell⟩
  · rintro ⟨x, ha, y, hb, hv⟩
    exact ⟨(x, y, v), SparseMatrix.mem_cells.mpr hv,
      (resolve_cell c.interner (x, y, v)).mpr ⟨(hc a x).mp ha, (hc b y).mp hb, rfl⟩⟩

/-- No two cells of a context are those of the same entities. -/
theorem distinct_cells (hc : c.interner.Valid) :
    c.cells.Pairwise fun p q => (p.1, p.2.1) ≠ (q.1, q.2.1) := by
  unfold cells
  refine List.Pairwise.filterMap _ ?_ c.coupling.distinct_cells
  rintro cell cell' hne ⟨a, b, v⟩ hp ⟨a', b', v'⟩ hq he
  obtain ⟨ha, hb, -⟩ := (resolve_cell c.interner cell).mp hp
  obtain ⟨ha', hb', -⟩ := (resolve_cell c.interner cell').mp hq
  -- two handles of one id are the same handle
  cases he
  rw [← hc] at ha hb ha' hb'
  rw [ha] at ha'
  rw [hb] at hb'
  exact hne (Prod.ext (Option.some.inj ha') (Option.some.inj hb'))

/-- The listed pairs are the recorded ones, the smaller id first. -/
theorem mem_pairs (hc : c.interner.Valid) :
    (a, b) ∈ c.pairs ↔ compare a b = .lt ∧ (c.couplingCell? a b).isSome = true := by
  unfold pairs
  rw [List.mem_filterMap, Option.isSome_iff_exists]
  constructor
  · rintro ⟨⟨a', b', v⟩, hcell, hif⟩
    split at hif
    next hlt =>
      cases hif
      exact ⟨Ordering.isLT_iff_eq_lt.mp hlt, v, (mem_cells hc).mp hcell⟩
    next => cases hif
  · rintro ⟨hlt, v, hv⟩
    exact ⟨(a, b, v), (mem_cells hc).mpr hv, if_pos (Ordering.isLT_iff_eq_lt.mpr hlt)⟩

/-- No pair is listed twice. -/
theorem nodup_pairs (hc : c.interner.Valid) : c.pairs.Nodup := by
  unfold pairs
  refine List.Pairwise.filterMap _ ?_ (distinct_cells hc)
  intro p q hne a ha b hb
  split at ha
  next =>
    split at hb
    next =>
      cases ha
      cases hb
      exact hne
    next => cases hb
  next => cases ha

end Pairs

/-! ## The order of pairs -/

section Order

variable [Weight ω]

/-- Doubles are put in a total order. -/
instance transCmp_float : Std.TransCmp (Weight.order : Float → Float → Ordering) :=
  transCmp_on compare Decimal.orderKey

/-- The order of pairs is total if that of couplings is. -/
instance transCmp_pairOrder [Std.TransCmp (Weight.order : ω → ω → Ordering)] :
    Std.TransCmp (pairOrder : CoupledPair ω → CoupledPair ω → Ordering) := by
  have hcoupling : Std.TransCmp fun p q : CoupledPair ω => Weight.order q.coupling p.coupling :=
    transCmp_on (fun v w => Weight.order w v) CoupledPair.coupling
  have hjoint : Std.TransCmp fun p q : CoupledPair ω => compare q.jointChanges p.jointChanges :=
    transCmp_on (fun m n : Nat => compare n m) CoupledPair.jointChanges
  have ha : Std.TransCmp fun p q : CoupledPair ω => compare p.entityA q.entityA :=
    transCmp_on compare CoupledPair.entityA
  have hb : Std.TransCmp fun p q : CoupledPair ω => compare p.entityB q.entityB :=
    transCmp_on compare CoupledPair.entityB
  exact inferInstanceAs (Std.TransCmp (compareLex _ (compareLex _ (compareLex _ _))))

/-- Only a pair itself has its place in the order. -/
theorem eq_of_pairOrder_eq {c : Context ω} {p q : QualifiedId × QualifiedId}
    (h : pairOrder (c.pairOf p) (c.pairOf q) = .eq) : p = q := by
  unfold pairOrder at h
  simp only [Ordering.then_eq_eq] at h
  exact Prod.ext (Std.compare_eq_iff_eq.mp h.2.2.1) (Std.compare_eq_iff_eq.mp h.2.2.2)

/-- In which order pairs are met does not matter once they are sorted. -/
theorem mergeSort_pairs_eq [Std.TransCmp (Weight.order : ω → ω → Ordering)] (c : Context ω)
    {ps qs : List (QualifiedId × QualifiedId)} (h : ps.Perm qs) :
    (ps.map c.pairOf).mergeSort (fun p q => (pairOrder p q).isLE) =
      (qs.map c.pairOf).mergeSort fun p q => (pairOrder p q).isLE := by
  have htrans : ∀ p q r : CoupledPair ω, (pairOrder p q).isLE → (pairOrder q r).isLE →
      (pairOrder p r).isLE := fun _ _ _ => Std.TransCmp.isLE_trans
  have htotal : ∀ p q : CoupledPair ω, (pairOrder p q).isLE || (pairOrder q p).isLE :=
    isLE_total pairOrder
  have hmem : ∀ {ps : List (QualifiedId × QualifiedId)} {p : CoupledPair ω},
      p ∈ (ps.map c.pairOf).mergeSort (fun p q => (pairOrder p q).isLE) → ∃ a, c.pairOf a = p := by
    intro ps p hp
    obtain ⟨a, -, ha⟩ := List.mem_map.mp (List.mem_mergeSort.mp hp)
    exact ⟨a, ha⟩
  refine List.Perm.eq_of_pairwise ?_ (List.pairwise_mergeSort htrans htotal _)
    (List.pairwise_mergeSort htrans htotal _)
    ((List.mergeSort_perm _ _).trans ((h.map _).trans (List.mergeSort_perm _ _).symm))
  intro p q hp hq hpq hqp
  obtain ⟨a, rfl⟩ := hmem hp
  obtain ⟨b, rfl⟩ := hmem hq
  rw [eq_of_pairOrder_eq (Std.OrientedCmp.isLE_antisymm hpq hqp)]

end Order

/-! ## The same answers -/

/-- Two contexts that keep the same about entities and pairs, under whatever handles. -/
structure Same (c c' : Context ω) : Prop where
  interner : c.interner.Valid
  interner' : c'.interner.Valid
  count? : ∀ x, c.count? x = c'.count? x
  jointCell? : ∀ x y, c.jointCell? x y = c'.jointCell? x y
  couplingCell? : ∀ x y, c.couplingCell? x y = c'.couplingCell? x y

/-- Two contexts that give the same answers: the tracked entities, their change counts, the joint
change counts and couplings of any two entities, the neighbours of any entity, the entities of each
file, and the list of coupled pairs up to any length. -/
structure SameAnswers [Weight ω] (c c' : Context ω) : Prop where
  tracked : c.entityIds = c'.entityIds
  changes : ∀ x, c.changeCount x = c'.changeCount x
  joint : ∀ x y, c.jointChangeCount x y = c'.jointChangeCount x y
  coupling : ∀ x y, c.couplingOf x y = c'.couplingOf x y
  neighbors : ∀ x, c.neighbors x = c'.neighbors x
  files : c.idsByFile = c'.idsByFile
  coupledPairs : ∀ limit, c.coupledPairs limit = c'.coupledPairs limit

namespace Same

variable {c c' : Context ω}

/-- Contexts that are the same but for their handles track the same entities. -/
theorem contains (h : Same c c') (x : QualifiedId) : c.contains x = c'.contains x := by
  rw [contains_eq, contains_eq, h.count?]

theorem entityIds (h : Same c c') : c.entityIds = c'.entityIds := by
  refine Std.ExtTreeSet.ext_mem fun x => ?_
  rw [mem_entityIds h.interner, mem_entityIds h.interner', h.contains]

/-- An entity has the same neighbours in both, in the same order. -/
theorem neighbors (h : Same c c') (x : QualifiedId) : c.neighbors x = c'.neighbors x := by
  refine (strictlySorted_neighbors h.interner x).eq_of_mem_iff
    (strictlySorted_neighbors h.interner' x) ?_
  rintro ⟨y, v⟩
  rw [mem_neighbors h.interner, mem_neighbors h.interner', h.contains, h.couplingCell?]

/-- The recorded pairs are the same, though not met in the same order. -/
theorem pairs (h : Same c c') : c.pairs.Perm c'.pairs := by
  refine (List.perm_ext_iff_of_nodup (nodup_pairs h.interner) (nodup_pairs h.interner')).mpr ?_
  rintro ⟨a, b⟩
  rw [mem_pairs h.interner, mem_pairs h.interner', h.couplingCell?]

variable [Weight ω]

theorem pairOf (h : Same c c') : c.pairOf = c'.pairOf := by
  funext p
  unfold Context.pairOf
  rw [jointChangeCount_eq, jointChangeCount_eq, h.jointCell?, couplingOf_eq, couplingOf_eq,
    h.couplingCell?, changeCount_eq, changeCount_eq, h.count?, changeCount_eq, changeCount_eq,
    h.count?]

/-- Both list the same pairs in the same order. -/
theorem coupledPairs [Std.TransCmp (Weight.order : ω → ω → Ordering)] (h : Same c c')
    (limit : Option Nat) : c.coupledPairs limit = c'.coupledPairs limit := by
  unfold Context.coupledPairs
  rw [mergeSort_pairs_eq c h.pairs, h.pairOf]

/-- Contexts that keep the same give the same answers. -/
theorem sameAnswers [Std.TransCmp (Weight.order : ω → ω → Ordering)] (h : Same c c') :
    SameAnswers c c' where
  tracked := h.entityIds
  changes x := by rw [changeCount_eq, changeCount_eq, h.count?]
  joint x y := by rw [jointChangeCount_eq, jointChangeCount_eq, h.jointCell?]
  coupling x y := by rw [couplingOf_eq, couplingOf_eq, h.couplingCell?]
  neighbors := h.neighbors
  files := by
    unfold Context.idsByFile
    rw [h.entityIds]
  coupledPairs := h.coupledPairs

/-- Thresholds leave the same of both. -/
theorem filter (h : Same c c') (minRevisions : Nat) (minCoupling : ω) :
    Same (c.filter minRevisions minCoupling) (c'.filter minRevisions minCoupling) where
  interner := h.interner
  interner' := h.interner'
  count? x := by rw [count?_filter, count?_filter, h.count?]
  jointCell? x y :=
    jointCell?_filter_congr (h.count? x) (h.count? y) (h.jointCell? x y) (h.couplingCell? x y)
      minRevisions minCoupling
  couplingCell? x y :=
    couplingCell?_filter_congr (h.count? x) (h.count? y) (h.jointCell? x y) (h.couplingCell? x y)
      minRevisions minCoupling

end Same

end Context

namespace ChangeCounter

variable {ω : Type} [Weight ω] {c c' : ChangeCounter}

/-- Counts that agree on entities and on pairs of them give contexts that keep the same. -/
theorem same_context (hc : Sound (c, ∅)) (hc' : Sound (c', ∅))
    (hcount : ∀ x, c.changeCount x = c'.changeCount x)
    (hjoint : ∀ x y, x ≠ y → c.jointCell? x y = c'.jointCell? x y) :
    Context.Same (c.context : Context ω) c'.context := by
  have hcell : ∀ x y, c.jointCell? x y = c'.jointCell? x y :=
    fun x y => jointCell?_eq_of_ne hc hc' (hjoint x y)
  refine ⟨hc.interner, hc'.interner, ?_, hcell, ?_⟩
  · intro x
    rw [count?_context hc, count?_context hc', hcount]
  · intro x y
    rw [couplingCell?_context hc, couplingCell?_context hc', hcount, hcount, hcell]

end ChangeCounter

end Cochange
