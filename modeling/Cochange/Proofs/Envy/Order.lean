import Cochange.Proofs.Envy.Sums

/-!
# The order of what is found

The files that an entity envies are put in a strict order, and the first of them are its instances
(`instancesOf_sorted`). The instances of all entities are then sorted by couplings and entities
alone. Since sorting leaves those of one entity with equal couplings as they stood, the files are in
order as well (`foundIn_sorted`).

In a strict order a list is told by its members. An instance is found if it is among those of its
entity (`mem_foundIn`), and the instances of an entity stand in the whole list as they stood before
it was sorted (`foundIn_filter`).
-/

namespace Cochange

namespace FeatureEnvy

variable {ω : Type} [Weight ω]

/-- The order of instances: from the most coupled to the least, then by entity, then by file. -/
def Instance.order (i j : Instance ω) : Ordering :=
  (instanceOrder i j).then (compare i.enviedFile j.enviedFile)

/-- What is found when some cells are gone through. -/
def foundIn (cells : List (QualifiedId × QualifiedId × ω)) (ratio : ω) (maxFiles : Nat) :
    List (Instance ω) :=
  ((cells.foldl addCell ∅).toList.flatMap fun t => instancesOf ratio maxFiles t.1 t.2).mergeSort
    fun i j => (instanceOrder i j).isLE

/-- With a sound ratio and a limit, what is found are the instances in the cells. -/
theorem find_eq (c : Context ω) {ratio : ω} {maxFiles : Nat} (hratio : isRatio ratio = true)
    (hmax : 1 ≤ maxFiles) : find c ratio maxFiles = .ok (foundIn c.cells ratio maxFiles) := by
  unfold find
  rw [hratio, if_neg (by decide), if_neg (Nat.ne_of_gt hmax)]
  rfl

/-- Nothing else is ever found. -/
theorem eq_of_find {c : Context ω} {ratio : ω} {maxFiles : Nat} {is : List (Instance ω)}
    (h : find c ratio maxFiles = .ok is) : is = foundIn c.cells ratio maxFiles := by
  unfold find at h
  split at h
  next => cases h
  split at h
  next => cases h
  exact (Except.ok.inj h).symm

/-! ## The files of one entity -/

variable {x : QualifiedId} {files : Std.ExtTreeMap String ω} {ratio : ω} {maxFiles : Nat}

/-- The coupling of an entity to its own file, given the sums. -/
def ownCoupling (x : QualifiedId) (files : Std.ExtTreeMap String ω) : ω :=
  files[x.sourcePath]?.getD Weight.zero

/-- All files that an entity envies, in order. -/
def ranked (ratio : ω) (x : QualifiedId) (files : Std.ExtTreeMap String ω) : List (String × ω) :=
  (files.toList.filter fun f =>
    f.1 ≠ x.sourcePath && Weight.lt (Weight.mul (ownCoupling x files) ratio) f.2).mergeSort
      fun f g => (fileOrder f g).isLE

/-- The instance for a file that an entity envies. -/
def instanceFor (x : QualifiedId) (files : Std.ExtTreeMap String ω) (f : String × ω) :
    Instance ω where
  function := x
  selfCoupling := ownCoupling x files
  enviedFile := f.1
  enviedCoupling := f.2

/-- The instances of an entity are the first of the files ranked for it. -/
theorem instancesOf_eq (ratio : ω) (maxFiles : Nat) (x : QualifiedId)
    (files : Std.ExtTreeMap String ω) : instancesOf ratio maxFiles x files =
      ((ranked ratio x files).take maxFiles).map (instanceFor x files) :=
  rfl

/-- A file is ranked if it is another one and coupled more strongly than the own file, as the ratio
has it. -/
theorem mem_ranked {f : String × ω} : f ∈ ranked ratio x files ↔
    files[f.1]? = some f.2 ∧ f.1 ≠ x.sourcePath ∧
      Weight.lt (Weight.mul (ownCoupling x files) ratio) f.2 = true := by
  unfold ranked
  rw [List.mem_mergeSort, List.mem_filter, ← Std.ExtTreeMap.mem_toList_iff_getElem?_eq_some,
    Bool.and_eq_true, decide_eq_true_eq]

/-- An instance of an entity envies one of the files to which the entity is coupled. -/
theorem of_mem_instancesOf {i : Instance ω} (hi : i ∈ instancesOf ratio maxFiles x files) :
    i.function = x ∧ i.enviedFile ∈ files := by
  obtain ⟨f, hf, rfl⟩ := List.mem_map.mp hi
  refine ⟨rfl, ?_⟩
  rw [Std.ExtTreeMap.mem_iff_isSome_getElem?]
  exact Option.isSome_of_eq_some (mem_ranked.mp (List.mem_of_mem_take hf)).1

/-- An instance is among those found if it is one of its entity. -/
theorem mem_foundIn {cells : List (QualifiedId × QualifiedId × ω)} {i : Instance ω} :
    i ∈ foundIn cells ratio maxFiles ↔
      i ∈ instancesOf ratio maxFiles i.function (filesOf cells i.function) := by
  unfold foundIn filesOf
  rw [List.mem_mergeSort, List.mem_flatMap]
  constructor
  · rintro ⟨⟨x, files⟩, ht, hi⟩
    obtain rfl := (of_mem_instancesOf hi).1
    rw [Std.ExtTreeMap.mem_toList_iff_getElem?_eq_some.mp ht]
    exact hi
  · intro hi
    cases hfiles : (cells.foldl addCell ∅)[i.function]? with
    | none =>
      rw [hfiles] at hi
      exact absurd (of_mem_instancesOf hi).2 Std.ExtTreeMap.not_mem_empty
    | some files =>
      rw [hfiles] at hi
      exact ⟨(i.function, files), Std.ExtTreeMap.mem_toList_iff_getElem?_eq_some.mpr hfiles, hi⟩

/-! ## Strict orders -/

variable [Std.TransCmp (Weight.order : ω → ω → Ordering)]

instance transCmp_fileOrder : Std.TransCmp (fileOrder : String × ω → String × ω → Ordering) := by
  have hcoupling : Std.TransCmp fun f g : String × ω => Weight.order g.2 f.2 :=
    transCmp_on (fun v w => Weight.order w v) Prod.snd
  have hpath : Std.TransCmp fun f g : String × ω => compare f.1 g.1 :=
    transCmp_on compare Prod.fst
  exact inferInstanceAs (Std.TransCmp (compareLex _ _))

instance transCmp_instanceOrder :
    Std.TransCmp (instanceOrder : Instance ω → Instance ω → Ordering) := by
  have hcoupling : Std.TransCmp fun i j : Instance ω =>
      Weight.order j.enviedCoupling i.enviedCoupling :=
    transCmp_on (fun v w => Weight.order w v) Instance.enviedCoupling
  have hfunction : Std.TransCmp fun i j : Instance ω => compare i.function j.function :=
    transCmp_on compare Instance.function
  exact inferInstanceAs (Std.TransCmp (compareLex _ _))

instance transCmp_order : Std.TransCmp (Instance.order : Instance ω → Instance ω → Ordering) := by
  have hfile : Std.TransCmp fun i j : Instance ω => compare i.enviedFile j.enviedFile :=
    transCmp_on compare Instance.enviedFile
  exact inferInstanceAs (Std.TransCmp (compareLex _ _))

/-- Files are ranked in strict order. -/
theorem ranked_sorted (ratio : ω) (x : QualifiedId) (files : Std.ExtTreeMap String ω) :
    (ranked ratio x files).Pairwise fun f g => fileOrder f g = .lt := by
  have hkeys : files.toList.Pairwise fun f g => ¬compare f.1 g.1 = .eq :=
    Std.ExtTreeMap.distinct_keys_toList
  refine pairwise_lt_mergeSort fileOrder ((hkeys.filter _).imp fun hne he => hne ?_)
  exact (Ordering.then_eq_eq.mp he).2

omit [Std.TransCmp (Weight.order : ω → ω → Ordering)] in
/-- Instances of one entity are ordered like their files. -/
theorem order_instanceFor (f g : String × ω) :
    (instanceFor x files f).order (instanceFor x files g) = fileOrder f g := by
  show ((Weight.order g.2 f.2).then (compare x x)).then (compare f.1 g.1) = fileOrder f g
  rw [Std.ReflOrd.compare_self, Ordering.then_eq]
  rfl

/-- The instances of an entity are in strict order. -/
theorem instancesOf_sorted (ratio : ω) (maxFiles : Nat) (x : QualifiedId)
    (files : Std.ExtTreeMap String ω) :
    (instancesOf ratio maxFiles x files).Pairwise fun i j => i.order j = .lt := by
  rw [instancesOf_eq, List.pairwise_map]
  refine ((ranked_sorted ratio x files).sublist (List.take_sublist _ _)).imp fun h => ?_
  rw [order_instanceFor]
  exact h

/-- The instances are in their order up to the files. -/
theorem foundIn_sorted (cells : List (QualifiedId × QualifiedId × ω)) (ratio : ω)
    (maxFiles : Nat) : (foundIn cells ratio maxFiles).Pairwise fun i j => i.order j = .lt := by
  -- instances that are sorted alike are of one entity, and stood in the order of their files
  have hstood : ((cells.foldl addCell ∅).toList.flatMap fun t =>
      instancesOf ratio maxFiles t.1 t.2).Pairwise fun i j =>
        instanceOrder i j = .eq → compare i.enviedFile j.enviedFile = .lt := by
    refine List.pairwise_flatMap.mpr ⟨fun t _ => ?_, ?_⟩
    · refine (instancesOf_sorted ratio maxFiles t.1 t.2).imp fun {i j} h he => ?_
      rw [Instance.order, he] at h
      exact h
    · refine Std.ExtTreeMap.distinct_keys_toList.imp fun {t u} hne i hi j hj he => absurd ?_ hne
      rw [← (of_mem_instancesOf hi).1, ← (of_mem_instancesOf hj).1]
      exact (Ordering.then_eq_eq.mp he).2
  refine (pairwise_mergeSort_of_pairwise hstood (fun _ _ _ => Std.TransCmp.isLE_trans)
    (isLE_total instanceOrder)).imp fun {i j} h => ?_
  unfold Instance.order
  cases hij : instanceOrder i j with
  | lt => rfl
  | eq =>
    have hji : (instanceOrder j i).isLE = true := by
      rw [Std.OrientedCmp.eq_symm hij]
      rfl
    exact h.2 hji hij
  | gt =>
    rw [hij] at h
    cases h.1

/-- The instances of an entity are found in the order of its files. -/
theorem foundIn_filter (cells : List (QualifiedId × QualifiedId × ω)) (ratio : ω) (maxFiles : Nat)
    (x : QualifiedId) : ((foundIn cells ratio maxFiles).filter fun i => i.function = x) =
      instancesOf ratio maxFiles x (filesOf cells x) := by
  refine List.Pairwise.eq_of_mem_iff ((foundIn_sorted cells ratio maxFiles).filter _)
    (instancesOf_sorted ratio maxFiles x (filesOf cells x)) fun i => ?_
  rw [List.mem_filter, mem_foundIn, decide_eq_true_eq]
  constructor
  · rintro ⟨hi, rfl⟩
    exact hi
  · intro hi
    obtain rfl := (of_mem_instancesOf hi).1
    exact ⟨hi, rfl⟩

end FeatureEnvy

end Cochange
