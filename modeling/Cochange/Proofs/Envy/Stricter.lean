import Cochange.Proofs.Envy.Ranking

/-!
# Stricter searches for envy

A higher ratio raises the threshold that the coupling of an entity to a file has to exceed. The
files of an entity are ranked by these couplings, so that those which still exceed it come first
(`isPrefix_ranked`), and a lower limit takes fewer of them (`isPrefix_instancesOf`). For every entity a
stricter search finds the beginning of what another one finds.

Since all instances stand in one strict order, those that are left stand in the whole list as they
stood before (`foundIn_sublist`), also where couplings are equal.
-/

namespace Cochange

namespace FeatureEnvy

variable {x : QualifiedId} {files : Std.ExtTreeMap String Rat} {ratio ratio' : Rat}
  {maxFiles maxFiles' : Nat}

/-- A threshold is not lower for a higher ratio, as the coupling to the own file is not negative. -/
theorem mul_ratio_le (hown : 0 ≤ ownCoupling x files) (hle : ratio ≤ ratio') :
    Weight.mul (ownCoupling x files) ratio ≤ Weight.mul (ownCoupling x files) ratio' :=
  mul_le_mul_of_nonneg_left hle hown

/-- What is ranked with a higher ratio is what exceeds the higher threshold. -/
theorem ranked_eq_filter (hown : 0 ≤ ownCoupling x files) (hle : ratio ≤ ratio') :
    ranked ratio' x files =
      (ranked ratio x files).filter fun f =>
        Weight.lt (Weight.mul (ownCoupling x files) ratio') f.2 := by
  refine List.Pairwise.eq_of_mem_iff (ranked_sorted ratio' x files)
    ((ranked_sorted ratio x files).filter _) fun f => ?_
  rw [List.mem_filter, mem_ranked, mem_ranked]
  constructor
  · rintro ⟨hsum, hother, hlt⟩
    have hlow := (mul_ratio_le hown hle).trans_lt (Weight.rat_lt.mp hlt)
    exact ⟨⟨hsum, hother, Weight.rat_lt.mpr hlow⟩, hlt⟩
  · rintro ⟨⟨hsum, hother, -⟩, hlt⟩
    exact ⟨hsum, hother, hlt⟩

/-- A file that is ranked before another one is coupled at least as strongly. -/
theorem le_of_fileOrder {f g : String × Rat} (h : fileOrder f g = .lt) : g.2 ≤ f.2 := by
  rcases Ordering.then_eq_lt.mp h with hlt | ⟨heq, -⟩
  · exact (Weight.rat_order_eq_lt.mp hlt).le
  · exact (Weight.rat_order_eq_eq.mp heq).le

/-- What exceeds the higher threshold comes first. -/
theorem isPrefix_ranked (hown : 0 ≤ ownCoupling x files) (hle : ratio ≤ ratio') :
    ranked ratio' x files <+: ranked ratio x files := by
  rw [ranked_eq_filter hown hle]
  refine isPrefix_filter ((ranked_sorted ratio x files).imp fun hfg hg => ?_)
  exact Weight.rat_lt.mpr ((Weight.rat_lt.mp hg).trans_le (le_of_fileOrder hfg))

/-- For an entity a stricter search finds the beginning of what another one finds. -/
theorem isPrefix_instancesOf (hown : 0 ≤ ownCoupling x files) (hle : ratio ≤ ratio')
    (hmax : maxFiles' ≤ maxFiles) :
    instancesOf ratio' maxFiles' x files <+: instancesOf ratio maxFiles x files := by
  rw [instancesOf_eq, instancesOf_eq]
  refine List.IsPrefix.map _ (List.prefix_take_iff.mpr ⟨?_, ?_⟩)
  · exact (List.take_prefix maxFiles' _).trans (isPrefix_ranked hown hle)
  · exact (List.length_take_le maxFiles' _).trans hmax

/-- Of all that is found, what a stricter search finds is left in its order. -/
theorem foundIn_sublist {cells : List (QualifiedId × QualifiedId × Rat)}
    (hown : ∀ x, 0 ≤ ownCoupling x (filesOf cells x)) (hle : ratio ≤ ratio')
    (hmax : maxFiles' ≤ maxFiles) :
    (foundIn cells ratio' maxFiles').Sublist (foundIn cells ratio maxFiles) := by
  have hsorted := foundIn_sorted cells ratio' maxFiles'
  have hsubset : foundIn cells ratio' maxFiles' ⊆ foundIn cells ratio maxFiles := by
    intro i hi
    exact mem_foundIn.mpr ((isPrefix_instancesOf (hown i.function) hle hmax).subset
      (mem_foundIn.mp hi))
  exact List.sublist_of_subperm_of_pairwise (List.subperm_of_subset hsorted.nodup hsubset) hsorted
    (foundIn_sorted cells ratio maxFiles)

end FeatureEnvy

namespace ChangeCounter

open FeatureEnvy

/-- For every context that is made from a history, by thresholds any number of times, a search with
a higher ratio and a lower limit finds, for each entity, the beginning of what is found with the
others, and of the whole list it leaves out some instances and keeps the rest in order. -/
theorem finish_find_stricter (ls : Languages) (limit : Nat) (before rs : List Revision)
    (c : ChangeCounter) (hcounted : ((start ls limit).run before).processAll rs = .ok c)
    (minRevisions : Nat) (minCoupling : Rat) (fs : List (Nat × Rat)) (ratio ratio' : Rat)
    (hratio : 0 ≤ ratio) (hle : ratio ≤ ratio') (hone : ratio' ≤ 1) (maxFiles maxFiles' : Nat)
    (hpos : 1 ≤ maxFiles') (hmax : maxFiles' ≤ maxFiles) :
    ∃ is is', find (fs.foldl (fun c f => c.filter f.1 f.2) (c.finish minRevisions minCoupling))
        ratio maxFiles = .ok is ∧
      find (fs.foldl (fun c f => c.filter f.1 f.2) (c.finish minRevisions minCoupling))
        ratio' maxFiles' = .ok is' ∧
      (∀ x, (is'.filter fun i => i.function = x) <+: is.filter fun i => i.function = x) ∧
      is'.Sublist is := by
  obtain ⟨hwell, hvalid⟩ := finish_filters_valid hcounted minRevisions minCoupling fs
  have hown : ∀ x, 0 ≤ ownCoupling x (filesOf (fs.foldl (fun c f => c.filter f.1 f.2)
      (c.finish minRevisions minCoupling)).cells x) := by
    intro x
    rw [ownCoupling_filesOf hwell hvalid]
    exact Context.couplingTo_nonneg hwell x x.sourcePath
  refine ⟨_, _, find_eq _ (isRatio_rat.mpr ⟨hratio, hle.trans hone⟩) (hpos.trans hmax),
    find_eq _ (isRatio_rat.mpr ⟨hratio.trans hle, hone⟩) hpos, fun x => ?_,
    foundIn_sublist hown hle hmax⟩
  rw [foundIn_filter, foundIn_filter]
  exact isPrefix_instancesOf (hown x) hle hmax

/-- With half of the highest ratio a function is found that envies another file as much as it is
coupled to its own. What is found with the highest ratio is left. -/
theorem finish_find_stricter_envious :
    ∃ c is is', ((start {} 2).run []).processAll enviousHistory = .ok c ∧
      find (c.finish 1 (0 : Rat)) (1 / 2) 2 = .ok is ∧
      find (c.finish 1 (0 : Rat)) 1 1 = .ok is' ∧
      ((is.filter fun i => i.function = sampleF).map fun i => i.enviedFile) = ["b.rs"] ∧
      is'.map (fun i => (i.function, i.enviedFile)) = [(sampleH, "a.rs")] ∧
      is'.Sublist is ∧ is' <+: is.filter fun i => i.function = sampleH := by
  obtain ⟨c, is', h, hfind', hfound⟩ := exists_find_enviousHistory
  obtain ⟨is, is'', hfind, hfind'', hstarts, hsub⟩ := finish_find_stricter {} 2 [] enviousHistory c
    h 1 0 [] (1 / 2) 1 (by decide +kernel) (by decide +kernel) (by decide) 2 1 (by decide)
    (by decide)
  obtain rfl : is' = is'' := Except.ok.inj (hfind'.symm.trans hfind'')
  have hsame : (is'.filter fun i => i.function = sampleH) = is' := by
    refine List.filter_eq_self.mpr fun i hi => decide_eq_true ?_
    have hpair : (i.function, i.enviedFile) ∈ [(sampleH, "a.rs")] :=
      hfound ▸ List.mem_map_of_mem hi
    exact (Prod.mk.inj (List.mem_singleton.mp hpair)).1
  have hother : (((start {} 2).run []).processAll enviousHistory).toOption.map (fun c =>
      (instancesOf (1 / 2 : Rat) 2 sampleF (filesOf (c.finish 1 0).cells sampleF)).map
        (·.enviedFile)) = some ["b.rs"] := by
    decide +kernel
  rw [h] at hother
  refine ⟨c, is, is', h, hfind, hfind', ?_, hfound, hsub, hsame ▸ hstarts sampleH⟩
  rw [eq_of_find hfind, foundIn_filter]
  exact Option.some.inj hother

end ChangeCounter

end Cochange
