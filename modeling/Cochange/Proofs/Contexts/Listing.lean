import Cochange.Proofs.Files.Projection

/-!
# The list of coupled pairs

The pairs come out of the matrix of couplings, where each is recorded in both orientations, and in
the order in which its cells are met. None of this is left in the list (`Context.Listed`): each
recorded pair is there once, the smaller id first, and the pairs are in a strict order, by what the
context says about them and by their ids. Such a list is told by what it holds, so the order in
which cells are met does not count (`listing_eq`), nor do the handles under which they are recorded.

That no pair is missed needs both orientations of its cells, and that no entity is coupled with
itself. Every context that is made from a history, by thresholds any number of times, is of this
kind (`finish_listed`).
-/

namespace Cochange

namespace CoupledPair

variable {ω : Type}

/-- Whether a pair is one of two entities. -/
def between (p : CoupledPair ω) (a b : QualifiedId) : Bool :=
  (p.entityA = a ∧ p.entityB = b) ∨ (p.entityA = b ∧ p.entityB = a)

/-- Whether a pair comes before another one: it is coupled more strongly, or as strongly and changed
together more often, or just as often and its ids come first, as far as they differ. -/
def Precedes [Weight ω] (p q : CoupledPair ω) : Prop :=
  Weight.order q.coupling p.coupling = .lt ∨
    (Weight.order q.coupling p.coupling = .eq ∧
      (q.jointChanges < p.jointChanges ∨
        (q.jointChanges = p.jointChanges ∧
          (compare p.entityA q.entityA = .lt ∨
            (p.entityA = q.entityA ∧ compare p.entityB q.entityB = .lt)))))

end CoupledPair

namespace Context

variable {ω : Type}

/-- The pairs among some cells, the smaller id first. -/
def pairsAmong (cells : List (QualifiedId × QualifiedId × ω)) : List (QualifiedId × QualifiedId) :=
  cells.filterMap fun cell =>
    if (compare cell.1 cell.2.1).isLT then some (cell.1, cell.2.1) else none

variable [Weight ω] {c c' : Context ω} {p : CoupledPair ω} {a b : QualifiedId} {v : ω}

/-- The list that is made when the recorded cells are met in some order. -/
def listing (c : Context ω) (cells : List (QualifiedId × QualifiedId × ω)) : List (CoupledPair ω) :=
  ((pairsAmong cells).map c.pairOf).mergeSort fun p q => (pairOrder p q).isLE

theorem coupledPairs_eq_listing (c : Context ω) : c.coupledPairs none = c.listing c.cells := rfl

/-- What the list of coupled pairs shows. -/
structure Listed (c : Context ω) : Prop where
  /-- The pairs are in a strict order. -/
  sorted : (c.coupledPairs none).Pairwise CoupledPair.Precedes
  /-- Each is a recorded pair, the smaller id first, with the counts and the coupling of the
  context. -/
  shown : ∀ p ∈ c.coupledPairs none, compare p.entityA p.entityB = .lt ∧
    (p.entityA, p.entityB, p.coupling) ∈ c.cells ∧
    p.coupling = c.couplingOf p.entityA p.entityB ∧
    p.jointChanges = c.jointChangeCount p.entityA p.entityB ∧
    p.changesA = c.changeCount p.entityA ∧ p.changesB = c.changeCount p.entityB
  /-- Each recorded pair is listed once, whichever of its entities is named first. -/
  once : ∀ a b v, (a, b, v) ∈ c.cells → ∃ p, (c.coupledPairs none).filter (·.between a b) = [p]
  /-- The order in which cells are met does not count. -/
  order : ∀ cells, cells.Perm c.cells → c.listing cells = c.coupledPairs none
  /-- The handles do not count. -/
  handles : ∀ c', c.Same c' → c'.coupledPairs none = c.coupledPairs none
  /-- A shorter list is made of the first pairs. -/
  limited : ∀ n, c.coupledPairs (some n) = (c.coupledPairs none).take n

/-! ## The order -/

/-- The order of pairs says of two of them which one precedes. -/
theorem pairOrder_eq_lt_iff {q : CoupledPair ω} : pairOrder p q = .lt ↔ p.Precedes q := by
  unfold pairOrder CoupledPair.Precedes
  simp only [Ordering.then_eq_lt, Nat.compare_eq_lt, Std.compare_eq_iff_eq]

/-- The listing does not depend on the order in which the cells are gone through. -/
theorem listing_eq [Std.TransCmp (Weight.order : ω → ω → Ordering)]
    {cells : List (QualifiedId × QualifiedId × ω)} (h : cells.Perm c.cells) :
    c.listing cells = c.coupledPairs none :=
  mergeSort_pairs_eq c (h.filterMap _)

/-- Of two listed pairs the one in front precedes. -/
theorem coupledPairs_sorted [Std.TransCmp (Weight.order : ω → ω → Ordering)]
    (hc : c.interner.Valid) : (c.coupledPairs none).Pairwise CoupledPair.Precedes := by
  have hdistinct : (c.pairs.map c.pairOf).Pairwise fun p q => pairOrder p q ≠ .eq :=
    List.pairwise_map.mpr ((nodup_pairs hc).imp fun hne heq => hne (eq_of_pairOrder_eq heq))
  exact (pairwise_lt_mergeSort pairOrder hdistinct).imp pairOrder_eq_lt_iff.mp

/-! ## The pairs -/

/-- What is listed are the recorded pairs, the smaller id first. -/
theorem mem_coupledPairs (hc : c.interner.Valid) :
    p ∈ c.coupledPairs none ↔ ∃ a b v, compare a b = .lt ∧ (a, b, v) ∈ c.cells ∧
      p = c.pairOf (a, b) := by
  rw [coupledPairs_eq_listing, listing, List.mem_mergeSort, List.mem_map]
  show (∃ ab ∈ c.pairs, c.pairOf ab = p) ↔ _
  constructor
  · intro ⟨⟨a, b⟩, hab, hp⟩
    obtain ⟨hlt, hsome⟩ := (mem_pairs hc).mp hab
    obtain ⟨v, hv⟩ := Option.isSome_iff_exists.mp hsome
    exact ⟨a, b, v, hlt, (mem_cells hc).mpr hv, hp.symm⟩
  · intro ⟨a, b, v, hlt, hcell, hp⟩
    have hsome := Option.isSome_iff_exists.mpr ⟨v, (mem_cells hc).mp hcell⟩
    exact ⟨(a, b), (mem_pairs hc).mpr ⟨hlt, hsome⟩, hp.symm⟩

/-- The value of a cell is the coupling of its entities. -/
theorem couplingOf_of_mem_cells (hc : c.interner.Valid) (hv : (a, b, v) ∈ c.cells) :
    c.couplingOf a b = v := by
  rw [couplingOf_eq, (mem_cells hc).mp hv]
  rfl

/-- A pair has its cell in both orientations, with one value. -/
theorem WellFormed.mem_cells_comm (hw : c.WellFormed) (hc : c.interner.Valid) :
    (a, b, v) ∈ c.cells ↔ (b, a, v) ∈ c.cells := by
  rw [mem_cells hc, mem_cells hc, couplingCell?_comm hw]

/-- No pair is listed twice. -/
theorem nodup_coupledPairs (hc : c.interner.Valid) : (c.coupledPairs none).Nodup := by
  refine (List.mergeSort_perm _ _).nodup_iff.mpr ((nodup_pairs hc).map fun ab ab' h => ?_)
  exact Prod.ext (congrArg CoupledPair.entityA h) (congrArg CoupledPair.entityB h)

/-- Of two recorded entities one pair is listed, with the smaller one first. -/
theorem filter_between (hc : c.interner.Valid) (hv : (a, b, v) ∈ c.cells)
    (hlt : compare a b = .lt) :
    (c.coupledPairs none).filter (·.between a b) = [c.pairOf (a, b)] := by
  refine filter_eq_singleton (nodup_coupledPairs hc) fun q => ?_
  constructor
  · intro ⟨hq, hbetween⟩
    obtain ⟨x, y, -, hxy, -, rfl⟩ := (mem_coupledPairs hc).mp hq
    rcases of_decide_eq_true hbetween with ⟨hxa, hyb⟩ | ⟨hxb, hya⟩
    · have hx : x = a := hxa
      have hy : y = b := hyb
      rw [hx, hy]
    · have hx : x = b := hxb
      have hy : y = a := hya
      rw [hx, hy, Std.OrientedCmp.gt_iff_lt.mpr hlt] at hxy
      cases hxy
  · intro hq
    subst hq
    exact ⟨(mem_coupledPairs hc).mpr ⟨a, b, v, hlt, hv, rfl⟩, decide_eq_true (Or.inl ⟨rfl, rfl⟩)⟩

/-- Exactly one listed pair is that of the two entities of a cell. -/
theorem WellFormed.exists_filter_between (hw : c.WellFormed) (hc : c.interner.Valid)
    (hv : (a, b, v) ∈ c.cells) :
    ∃ p, (c.coupledPairs none).filter (·.between a b) = [p] := by
  cases hab : compare a b with
  | lt => exact ⟨_, filter_between hc hv hab⟩
  | eq =>
    have hne := (hw.recorded ((mem_cells hc).mp hv)).1
    exact absurd (Std.compare_eq_iff_eq.mp hab) hne
  -- then it is the opposite cell that is listed
  | gt =>
    have hswap : ∀ p : CoupledPair ω, p.between a b = p.between b a :=
      fun p => decide_eq_decide.mpr or_comm
    simp only [hswap]
    exact ⟨_, filter_between hc ((hw.mem_cells_comm hc).mp hv) (Std.OrientedCmp.gt_iff_lt.mp hab)⟩

/-- The listing of a well-formed context is the canonical one. -/
theorem WellFormed.listed [Std.TransCmp (Weight.order : ω → ω → Ordering)] (hw : c.WellFormed)
    (hc : c.interner.Valid) : c.Listed where
  sorted := coupledPairs_sorted hc
  shown := by
    intro p hp
    obtain ⟨a, b, v, hlt, hcell, rfl⟩ := (mem_coupledPairs hc).mp hp
    refine ⟨hlt, ?_, rfl, rfl, rfl, rfl⟩
    show (a, b, c.couplingOf a b) ∈ c.cells
    rwa [couplingOf_of_mem_cells hc hcell]
  once := fun _ _ _ => hw.exists_filter_between hc
  order := fun _ => listing_eq
  handles := fun _ h => (h.coupledPairs none).symm
  limited := fun _ => rfl

end Context

namespace ChangeCounter

variable {ω : Type} [Weight ω] [Std.TransCmp (Weight.order : ω → ω → Ordering)]

/-- Every context that is made from a history, and every one made from it by thresholds, lists its
coupled pairs in one way. Revisions that failed may have gone before. -/
theorem finish_listed (ls : Languages) (limit : Nat) (before rs : List Revision) (c : ChangeCounter)
    (hcounted : ((start ls limit).run before).processAll rs = .ok c) (minRevisions : Nat)
    (minCoupling : ω) (fs : List (Nat × ω)) :
    (fs.foldl (fun c f => c.filter f.1 f.2) (c.finish minRevisions minCoupling)).Listed := by
  obtain ⟨hwell, hvalid⟩ := finish_filters_valid hcounted minRevisions minCoupling fs
  exact hwell.listed hvalid

/-- A pair is listed once with the smaller id first, whichever of its functions is named first, and
also if its cells are met the other way round. -/
theorem finish_listed_paired :
    ∃ c ctx, ((start {} 3).run failingHistory).processAll pairedHistory = .ok c ∧
      ctx = (c.finish 1 (0 : Float)).filter 3 0.5 ∧
      ctx.coupledPairs none = ctx.listing ctx.cells.reverse ∧
      ∃ p, (ctx.coupledPairs none).filter (·.between sampleG sampleF) = [p] ∧
        p.entityA = sampleF ∧ p.entityB = sampleG ∧ p.jointChanges = 3 := by
  have hcount : (((start {} 3).run failingHistory).processAll pairedHistory).toOption.map
      (fun c => (((c.finish 1 (0 : Float)).filter 3 0.5).cells.map (fun cell => (cell.1, cell.2.1)),
        ((c.finish 1 (0 : Float)).filter 3 0.5).jointChangeCount sampleF sampleG)) =
      some ([(sampleF, sampleG), (sampleG, sampleF)], 3) := by decide +kernel
  obtain ⟨c, h, hseen⟩ := exists_ok hcount
  obtain ⟨hcells, hjoint⟩ := Prod.mk.inj hseen
  have hlisted := finish_listed {} 3 failingHistory pairedHistory c h 1 (0 : Float) [(3, 0.5)]
  have hcell : (sampleG, sampleF) ∈ ((c.finish 1 (0 : Float)).filter 3 0.5).cells.map
      fun cell => (cell.1, cell.2.1) := by
    rw [hcells]
    exact List.mem_cons_of_mem _ List.mem_cons_self
  obtain ⟨⟨a, b, v⟩, hv, hab⟩ := List.mem_map.mp hcell
  obtain ⟨rfl, rfl⟩ := Prod.mk.inj hab
  obtain ⟨p, hp⟩ := hlisted.once _ _ v hv
  have hmem : p ∈ [p] := List.mem_cons_self
  rw [← hp, List.mem_filter] at hmem
  obtain ⟨hlt, -, -, hjointp, -⟩ := hlisted.shown p hmem.1
  refine ⟨c, _, h, rfl, (hlisted.order _ (List.reverse_perm _)).symm, p, hp, ?_⟩
  rcases of_decide_eq_true hmem.2 with ⟨ha, hb⟩ | ⟨ha, hb⟩
  · rw [ha, hb] at hlt
    exact absurd hlt (by decide)
  · rw [ha, hb] at hjointp
    exact ⟨ha, hb, hjointp.trans hjoint⟩

end ChangeCounter

end Cochange
