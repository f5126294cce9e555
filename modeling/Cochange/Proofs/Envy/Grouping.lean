import Cochange.Config.Basic
import Cochange.Proofs.Envy.Order

/-!
# Instances and their source files

An instance is found where couplings are recorded: its entity has a recorded coupling to an entity
of the file that it envies (`exists_cell_of_mem_find`). So both ends are tracked in a well-formed
context, and neither file is without entities.

Instances are grouped by the beginning of the ids of their entities, which is the path of the
source file (`Instance.file_eq`). Each group holds the instances of its file in their order
(`getElem?_byFile`).
-/

namespace Cochange

namespace FeatureEnvy

variable {ω : Type} {path : String}

/-- The id of an entity begins with the path of its source file, up to the first separator. -/
theorem Instance.file_eq (i : Instance ω) : i.file = i.function.sourcePath := by
  have hpath := QualifiedId.takeWhile_isPlain_append i.function.path.ok.2
    i.function.startsApart_behindPath
  rw [← QualifiedId.toList_text_eq] at hpath
  exact (congrArg String.ofList hpath).trans String.ofList_toList

/-! ## Groups -/

/-- The instances of a file are grouped in their order, and there is no group without any. -/
theorem getElem?_byFile (is : List (Instance ω)) (path : String) :
    (byFile is)[path]? =
      if (is.filter fun i => i.function.sourcePath = path) = [] then none
      else some (is.filter fun i => i.function.sourcePath = path) := by
  induction is with
  | nil => exact Std.ExtTreeMap.getElem?_empty
  | cons i is ih =>
    show ((byFile is).alter i.file fun js => some (i :: js.getD []))[path]? = _
    rw [Std.ExtTreeMap.getElem?_alter, ih, i.file_eq]
    by_cases hi : i.function.sourcePath = path
    · rw [List.filter_cons_of_pos (by simpa using hi), if_neg (List.cons_ne_nil _ _),
        if_pos (Std.compare_eq_iff_eq.mpr hi), hi, ih]
      split
      next hnil => rw [hnil]; rfl
      next => rfl
    · rw [List.filter_cons_of_neg (by simpa using hi),
        if_neg fun h => hi (Std.compare_eq_iff_eq.mp h)]

/-- Under a file there are the instances of its entities, in their order, and no file is without
any. -/
theorem mem_toList_byFile {is js : List (Instance ω)} :
    (path, js) ∈ (byFile is).toList ↔
      js ≠ [] ∧ js = is.filter fun i => i.function.sourcePath = path := by
  rw [Std.ExtTreeMap.mem_toList_iff_getElem?_eq_some, getElem?_byFile]
  constructor
  · intro h
    obtain ⟨hne, hjs⟩ := Option.ite_none_left_eq_some.mp h
    have hjs := Option.some.inj hjs
    exact ⟨hjs ▸ hne, hjs.symm⟩
  · rintro ⟨hne, rfl⟩
    exact if_neg hne

/-- Files are in order, each once. -/
theorem byFile_sorted (is : List (Instance ω)) : StrictlySorted (·.1) (byFile is).toList :=
  Std.ExtTreeMap.ordered_keys_toList

/-! ## Where instances come from -/

variable [Weight ω] {c : Context ω}

/-- An envied file has an entity that the envious one is coupled to. -/
theorem exists_cell_of_mem_find {ratio : ω} {maxFiles : Nat} {is : List (Instance ω)}
    (h : find c ratio maxFiles = .ok is) {i : Instance ω} (hi : i ∈ is) :
    ∃ y v, (i.function, y, v) ∈ c.cells ∧ y.sourcePath = i.enviedFile := by
  obtain rfl := eq_of_find h
  exact exists_cell_of_mem_filesOf (of_mem_instancesOf (mem_foundIn.mp hi)).2

/-- With thresholds that have no fault the search succeeds. -/
theorem exists_find {t : Thresholds ω} (ht : t.fault? = none) (c : Context ω) :
    ∃ is, find c t.minEnvyRatio t.maxEnviedFiles = .ok is := by
  unfold Thresholds.fault? at ht
  split at ht
  next => cases ht
  next hratio =>
    split at ht
    next => cases ht
    next hmax =>
      unfold find
      rw [if_neg hratio, if_neg hmax]
      exact ⟨_, rfl⟩

/-- Both files of an instance have tracked entities. -/
theorem tracked_of_mem_find (hw : c.WellFormed) (hc : c.interner.Valid) {ratio : ω}
    {maxFiles : Nat} {is : List (Instance ω)} (h : find c ratio maxFiles = .ok is)
    {i : Instance ω} (hi : i ∈ is) :
    i.function ∈ c.entityIds ∧ ∃ y ∈ c.entityIds, y.sourcePath = i.enviedFile := by
  obtain ⟨y, v, hcell, hy⟩ := exists_cell_of_mem_find h hi
  obtain ⟨-, hx, hcy⟩ := hw.recorded ((Context.mem_cells hc).mp hcell)
  exact ⟨(Context.mem_entityIds hc).mpr hx, y, (Context.mem_entityIds hc).mpr hcy, hy⟩

end FeatureEnvy

end Cochange
