import Cochange.Proofs.Envy.Report
import Mathlib.Data.Set.Card

/-!
# The ranking of envied files

In exact arithmetic it can be said without any order of computation which files an entity envies
(`Envied`) and which of two of them comes first (`Ahead`), in terms of the sums of its couplings to
the entities of a file. What is found are the instances for these files, for each entity as many of
the first as the limit allows, each of them once and in one strict order (`Ranked`). So it is the
same in whatever order the cells are gone through.

The sums of all recorded couplings are these (`ownCoupling_filesOf`, `mem_ranked_filesOf`). The
ratio must not be negative here: else files without any coupling would be envied as well.
-/

namespace Cochange

namespace FeatureEnvy

/-- An entity envies a file: another one than its own, to which it is coupled by more than the ratio
of its coupling to its own. -/
def Envied (c : Context Rat) (ratio : Rat) (x : QualifiedId) (path : String) : Prop :=
  path ≠ x.sourcePath ∧ ratio * c.couplingTo x x.sourcePath < c.couplingTo x path

/-- Which of two files comes first for an entity: the one to which it is coupled more, and of two
with equal couplings the one with the smaller path. -/
def Ahead (c : Context Rat) (x : QualifiedId) (p q : String) : Prop :=
  c.couplingTo x q < c.couplingTo x p ∨
    c.couplingTo x p = c.couplingTo x q ∧ compare p q = .lt

/-- A file is among the first that an entity envies: fewer of them than the limit come before it. -/
def AmongFirst (c : Context Rat) (ratio : Rat) (maxFiles : Nat) (x : QualifiedId)
    (path : String) : Prop :=
  Envied c ratio x path ∧ {p | Envied c ratio x p ∧ Ahead c x p path}.encard < maxFiles

/-- A list has one instance for each entity and each of the first files that it envies, and no
other. Each instance has the sums of the couplings, and they stand in a strict order. The same list
is found when the cells are gone through in any other order. -/
structure Ranked (c : Context Rat) (ratio : Rat) (maxFiles : Nat) (is : List (Instance Rat)) :
    Prop where
  mem : ∀ x path, (∃ i ∈ is, i.function = x ∧ i.enviedFile = path) ↔
    AmongFirst c ratio maxFiles x path
  once : (is.map fun i => (i.function, i.enviedFile)).Nodup
  couplings : ∀ i ∈ is, i.selfCoupling = c.couplingTo i.function i.function.sourcePath ∧
    i.enviedCoupling = c.couplingTo i.function i.enviedFile
  sorted : is.Pairwise fun i j => i.order j = .lt
  any_order : ∀ cells, cells.Perm c.cells → foundIn cells ratio maxFiles = is

variable {c : Context Rat} {x : QualifiedId} {path : String} {ratio : Rat} {maxFiles : Nat}

/-! ## Exact sums and orders -/

/-- In exact arithmetic ratios lie between zero and one. -/
theorem isRatio_rat : isRatio ratio = true ↔ 0 ≤ ratio ∧ ratio ≤ 1 := by
  have hone : (Weight.one : Rat) = 1 := div_one 1
  unfold isRatio
  rw [hone, Bool.and_eq_true]
  exact and_congr decide_eq_true_iff decide_eq_true_iff

/-- Files with the sums of couplings to them are put in the order in which they come. -/
theorem fileOrder_eq_lt {f g : String × Rat} (hf : f.2 = c.couplingTo x f.1)
    (hg : g.2 = c.couplingTo x g.1) : fileOrder f g = .lt ↔ Ahead c x f.1 g.1 := by
  unfold fileOrder Ahead
  rw [Ordering.then_eq_lt, Weight.rat_order_eq_lt, Weight.rat_order_eq_eq, hf, hg,
    eq_comm (a := c.couplingTo x g.1)]

/-- Nothing listed is as good as a sum of zero. -/
theorem getD_filesOf (hw : c.WellFormed) (hc : c.interner.Valid) (x : QualifiedId) (path : String) :
    (filesOf c.cells x)[path]?.getD 0 = c.couplingTo x path := by
  rw [← Context.sum_couplingsTo hw hc]
  cases hsum : (filesOf c.cells x)[path]? with
  | none =>
    rw [Option.getD_none]
    by_contra hne
    have hlisted : couplingsTo c.cells x path ≠ [] := fun hnil => hne (by rw [hnil]; rfl)
    rw [getElem?_filesOf_eq_some.mpr ⟨hlisted, rfl⟩] at hsum
    cases hsum
  | some s => exact (getElem?_filesOf_eq_some.mp hsum).2.symm

/-- The own coupling of an entity is its coupling to its file. -/
theorem ownCoupling_filesOf (hw : c.WellFormed) (hc : c.interner.Valid) (x : QualifiedId) :
    ownCoupling x (filesOf c.cells x) = c.couplingTo x x.sourcePath :=
  getD_filesOf hw hc x x.sourcePath

/-- The files that are ranked for an entity are those that it envies, with the sums of its
couplings to them. -/
theorem mem_ranked_filesOf (hw : c.WellFormed) (hc : c.interner.Valid) (hratio : 0 ≤ ratio)
    {f : String × Rat} : f ∈ ranked ratio x (filesOf c.cells x) ↔
      Envied c ratio x f.1 ∧ f.2 = c.couplingTo x f.1 := by
  rw [mem_ranked, ownCoupling_filesOf hw hc, Weight.rat_lt]
  show _ ∧ _ ∧ c.couplingTo x x.sourcePath * ratio < f.2 ↔ _
  rw [mul_comm, ← getD_filesOf hw hc x f.1, Envied, ← getD_filesOf hw hc x f.1]
  constructor
  · rintro ⟨hsum, hother, hlt⟩
    rw [hsum]
    exact ⟨⟨hother, hlt⟩, rfl⟩
  · rintro ⟨⟨hother, hlt⟩, hf⟩
    refine ⟨?_, hother, hf ▸ hlt⟩
    cases hsum : (filesOf c.cells x)[f.1]? with
    | some s =>
      rw [hf, hsum]
      rfl
    | none =>
      -- a file without couplings exceeds no threshold
      rw [hsum] at hlt
      have hnonneg := mul_nonneg hratio (Context.couplingTo_nonneg hw x x.sourcePath)
      exact absurd hlt hnonneg.not_gt

/-! ## The first files of an entity -/

theorem encard_mem {α : Type} {l : List α} (hl : l.Nodup) : {a | a ∈ l}.encard = l.length := by
  classical
  rw [← List.coe_toFinset, Set.encard_coe_eq_coe_finsetCard, List.toFinset_card_of_nodup hl]

/-- As many files are ranked before a file as come first. -/
theorem encard_ahead (hw : c.WellFormed) (hc : c.interner.Valid) (hratio : 0 ≤ ratio)
    {f : String × Rat} (hf : f.2 = c.couplingTo x f.1) :
    {p | Envied c ratio x p ∧ Ahead c x p f.1}.encard =
      ((ranked ratio x (filesOf c.cells x)).filter fun g => fileOrder g f = .lt).length := by
  have hmem := fun g => mem_ranked_filesOf (x := x) (f := g) hw hc hratio
  have hnodup : (((ranked ratio x (filesOf c.cells x)).filter fun g =>
      fileOrder g f = .lt).map (·.1)).Nodup := by
    refine List.pairwise_map.mpr (((ranked_sorted ratio x _).filter _).imp_of_mem ?_)
    intro g h hg hh hlt he
    have hg := ((hmem g).mp (List.mem_filter.mp hg).1).2
    have hh := ((hmem h).mp (List.mem_filter.mp hh).1).2
    rw [Prod.ext he (hg.trans ((congrArg _ he).trans hh.symm))] at hlt
    exact (irrefl_lt fileOrder).irrefl h hlt
  rw [← List.length_map (f := Prod.fst), ← encard_mem hnodup]
  congr 1
  ext p
  constructor
  · intro ⟨henvied, hahead⟩
    exact List.mem_map.mpr ⟨(p, c.couplingTo x p), List.mem_filter.mpr
      ⟨(hmem _).mpr ⟨henvied, rfl⟩, decide_eq_true ((fileOrder_eq_lt rfl hf).mpr hahead)⟩, rfl⟩
  · intro hp
    obtain ⟨g, hg, rfl⟩ := List.mem_map.mp hp
    obtain ⟨hg, hlt⟩ := List.mem_filter.mp hg
    obtain ⟨henvied, hsum⟩ := (hmem g).mp hg
    exact ⟨henvied, (fileOrder_eq_lt hsum hf).mp (of_decide_eq_true hlt)⟩

/-- The instances of an entity are for the first of the files that it envies. -/
theorem mem_instancesOf_filesOf (hw : c.WellFormed) (hc : c.interner.Valid) (hratio : 0 ≤ ratio)
    {i : Instance Rat} : i ∈ instancesOf ratio maxFiles x (filesOf c.cells x) ↔
      i.function = x ∧ AmongFirst c ratio maxFiles x i.enviedFile ∧
        i.selfCoupling = c.couplingTo x x.sourcePath ∧
        i.enviedCoupling = c.couplingTo x i.enviedFile := by
  have htake : ∀ f : String × Rat, f ∈ (ranked ratio x (filesOf c.cells x)).take maxFiles ↔
      AmongFirst c ratio maxFiles x f.1 ∧ f.2 = c.couplingTo x f.1 := by
    intro f
    rw [mem_take_iff fileOrder (ranked_sorted ratio x _), mem_ranked_filesOf hw hc hratio,
      and_right_comm, AmongFirst]
    refine and_congr_left fun hf => and_congr_right fun _ => ?_
    rw [encard_ahead hw hc hratio hf, Nat.cast_lt]
  rw [instancesOf_eq, List.mem_map]
  constructor
  · rintro ⟨f, hf, rfl⟩
    obtain ⟨hfirst, hsum⟩ := (htake f).mp hf
    exact ⟨rfl, hfirst, ownCoupling_filesOf hw hc x, hsum⟩
  · rintro ⟨rfl, hfirst, hown, hsum⟩
    refine ⟨(i.enviedFile, i.enviedCoupling), (htake _).mpr ⟨hfirst, hsum⟩, ?_⟩
    rw [instanceFor, ownCoupling_filesOf hw hc, ← hown]

/-! ## The whole list -/

/-- What is found in a well-formed context are the instances for the first of the files that are
envied, in order. -/
theorem foundIn_ranked (hw : c.WellFormed) (hc : c.interner.Valid) (hratio : 0 ≤ ratio)
    (maxFiles : Nat) : Ranked c ratio maxFiles (foundIn c.cells ratio maxFiles) := by
  have hmem : ∀ i, i ∈ foundIn c.cells ratio maxFiles ↔
      AmongFirst c ratio maxFiles i.function i.enviedFile ∧
        i.selfCoupling = c.couplingTo i.function i.function.sourcePath ∧
        i.enviedCoupling = c.couplingTo i.function i.enviedFile := by
    intro i
    rw [mem_foundIn, mem_instancesOf_filesOf hw hc hratio, and_iff_right rfl]
  have hsorted := foundIn_sorted c.cells ratio maxFiles
  refine ⟨fun x path => ?_, ?_, fun i hi => ((hmem i).mp hi).2, hsorted, fun cells hcells => ?_⟩
  · constructor
    · rintro ⟨i, hi, rfl, rfl⟩
      exact ((hmem i).mp hi).1
    · intro hfirst
      exact ⟨⟨x, c.couplingTo x x.sourcePath, path, c.couplingTo x path⟩,
        (hmem _).mpr ⟨hfirst, rfl, rfl⟩, rfl, rfl⟩
  · refine List.pairwise_map.mpr (hsorted.imp_of_mem fun {i j} hi hj hlt he => ?_)
    obtain ⟨hfunction, hfile⟩ := Prod.mk.inj he
    have hi := ((hmem i).mp hi).2.2
    have hj := ((hmem j).mp hj).2.2
    rw [hfunction, hfile, ← hj] at hi
    rw [Instance.order, instanceOrder, hi, hfunction, hfile] at hlt
    exact (irrefl_lt Instance.order).irrefl j hlt
  · refine List.Pairwise.eq_of_mem_iff (foundIn_sorted cells ratio maxFiles) hsorted fun i => ?_
    rw [mem_foundIn, mem_foundIn, filesOf_perm hcells]

end FeatureEnvy

namespace ChangeCounter

open FeatureEnvy

/-- For every context that is made from a history, by thresholds any number of times, every ratio
from zero to one and every limit, the search succeeds, and finds exactly the first of the files that
are envied, in order. -/
theorem finish_find_ranked (ls : Languages) (limit : Nat) (before rs : List Revision)
    (c : ChangeCounter) (hcounted : ((start ls limit).run before).processAll rs = .ok c)
    (minRevisions : Nat) (minCoupling : Rat) (fs : List (Nat × Rat)) (ratio : Rat)
    (hratio : 0 ≤ ratio) (hle : ratio ≤ 1) (maxFiles : Nat) (hmax : 1 ≤ maxFiles) :
    ∃ is, find (fs.foldl (fun c f => c.filter f.1 f.2) (c.finish minRevisions minCoupling)) ratio
        maxFiles = .ok is ∧
      Ranked (fs.foldl (fun c f => c.filter f.1 f.2) (c.finish minRevisions minCoupling)) ratio
        maxFiles is := by
  obtain ⟨hwell, hvalid⟩ := finish_filters_valid hcounted minRevisions minCoupling fs
  exact ⟨_, find_eq _ (isRatio_rat.mpr ⟨hratio, hle⟩) hmax,
    foundIn_ranked hwell hvalid hratio maxFiles⟩

/-- The function that is coupled to the other file alone envies it. The one that is coupled to its
own file as much does not. -/
theorem finish_find_ranked_envious :
    ∃ c is, ((start {} 2).run []).processAll enviousHistory = .ok c ∧
      find (c.finish 1 (0 : Rat)) 1 1 = .ok is ∧
      is.map (fun i => (i.function, i.enviedFile)) = [(sampleH, "a.rs")] ∧
      AmongFirst (c.finish 1 0) 1 1 sampleH "a.rs" ∧
      ¬AmongFirst (c.finish 1 0) 1 1 sampleF "b.rs" := by
  obtain ⟨c, is, h, hfind, hfound⟩ := exists_find_enviousHistory
  obtain ⟨is', hfind', hranked⟩ := finish_find_ranked {} 2 [] enviousHistory c h 1 0 [] 1
    (by decide) (by decide) 1 (by decide)
  obtain rfl : is = is' := Except.ok.inj (hfind.symm.trans hfind')
  have hmem : ∀ x path, AmongFirst (c.finish 1 0) 1 1 x path → (x, path) = (sampleH, "a.rs") := by
    intro x path hfirst
    obtain ⟨i, hi, rfl, rfl⟩ := (hranked.mem x path).mpr hfirst
    exact List.mem_singleton.mp (hfound ▸ List.mem_map_of_mem hi)
  refine ⟨c, is, h, hfind, hfound, (hranked.mem sampleH "a.rs").mp ?_, fun hfirst => ?_⟩
  · obtain ⟨i, hi, hpair⟩ := List.mem_map.mp (hfound ▸ List.mem_singleton_self _)
    obtain ⟨hfunction, hfile⟩ := Prod.mk.inj hpair
    exact ⟨i, hi, hfunction, hfile⟩
  · exact absurd (hmem sampleF "b.rs" hfirst) (by decide)

end ChangeCounter

end Cochange
