import Cochange.Inspection
import Cochange.Proofs.Contexts.Doubles
import Cochange.Proofs.Matrix.Cells

/-!
# Thresholds one after the other

Filtering a context leaves out what does not reach the thresholds. What it decides of an entity
depends on its change count, and what it decides of a pair on the joint changes, the coupling and
the two entities; all of these stay as they are for what is kept. So two filters, one after the
other, keep what reaches the thresholds of both (`restrict_restrict`), and it makes no difference
whether thresholds are set while a history is analysed or afterwards (`thresholds_compose`).

That contexts are equal says more than that they give the same answers. What a filter leaves of a
context is said by ids in `Context.PartOf`.
-/

namespace Cochange

namespace Context

variable {ω : Type}

/-- Contexts with the same handles, counts and cells are the same. -/
theorem ext_cells {c c' : Context ω} (hinterner : c.interner = c'.interner)
    (hchanges : ∀ x : Handle, c.changes[x]? = c'.changes[x]?)
    (hjointRows : c.joint.rows.size = c'.joint.rows.size)
    (hjoint : ∀ x y, c.joint.get? x y = c'.joint.get? x y)
    (hcouplingRows : c.coupling.rows.size = c'.coupling.rows.size)
    (hcoupling : ∀ x y, c.coupling.get? x y = c'.coupling.get? x y) : c = c' := by
  obtain ⟨interner, changes, joint, coupling⟩ := c
  obtain ⟨interner', changes', joint', coupling'⟩ := c'
  have h₁ : interner = interner' := hinterner
  have h₂ : changes = changes' := Std.ExtTreeMap.ext_getElem? hchanges
  have h₃ : joint = joint' := SparseMatrix.ext_get? hjointRows hjoint
  have h₄ : coupling = coupling' := SparseMatrix.ext_get? hcouplingRows hcoupling
  rw [h₁, h₂, h₃, h₄]

/-! ## What is left of a context -/

/-- Whether an entity has so many changes. -/
def reaches (c : Context ω) (minRevisions : Nat) (x : Handle) : Bool :=
  c.changes[x]?.any fun n => minRevisions ≤ n

/-- Whether a recorded pair stays when couplings have to satisfy a condition. -/
def stays (c : Context ω) (minRevisions : Nat) (strong : ω → Bool) (x y : Handle) (v : ω) : Bool :=
  minRevisions ≤ (c.joint.get? x y).getD 0 && strong v && c.reaches minRevisions x &&
    c.reaches minRevisions y

/-- The entities with so many changes, and of their pairs those with so many joint changes whose
coupling satisfies a condition. -/
def restrict (c : Context ω) (minRevisions : Nat) (strong : ω → Bool) : Context ω where
  interner := c.interner
  changes := c.changes.filter fun _ n => minRevisions ≤ n
  joint := c.coupling.filterMap fun x y v =>
    if c.stays minRevisions strong x y v then some ((c.joint.get? x y).getD 0) else none
  coupling := c.coupling.filterMap fun x y v =>
    if c.stays minRevisions strong x y v then some v else none

/-- Thresholds are one kind of condition. -/
theorem filter_eq_restrict [Weight ω] (c : Context ω) (minRevisions : Nat) (minCoupling : ω) :
    c.filter minRevisions minCoupling = c.restrict minRevisions (Weight.le minCoupling) := by
  have hkeeps : ∀ x y v, c.keepsPair (c.changes.filter fun _ n => minRevisions ≤ n) minRevisions
      minCoupling x y v = c.stays minRevisions (Weight.le minCoupling) x y v := by
    intro x y v
    unfold keepsPair stays reaches
    rw [Std.ExtTreeMap.contains_eq_isSome_getElem?, Std.ExtTreeMap.contains_eq_isSome_getElem?,
      Std.ExtTreeMap.getElem?_filter', Std.ExtTreeMap.getElem?_filter', Option.isSome_filter,
      Option.isSome_filter]
  unfold filter restrict
  simp only [hkeeps]

section Restrict

variable {c : Context ω} {m m₁ m₂ : Nat} {p p₁ p₂ : ω → Bool} {x y : Handle}

/-- Behind one threshold of changes another one takes both to be reached. -/
theorem reaches_restrict :
    (c.restrict m₁ p).reaches m₂ x = (c.reaches m₁ x && c.reaches m₂ x) := by
  unfold reaches restrict
  rw [Std.ExtTreeMap.getElem?_filter']
  cases c.changes[x]? with
  | none => rfl
  | some n => by_cases h : m₁ ≤ n <;> simp [h]

/-- To reach the larger of two thresholds is to reach both. -/
theorem reaches_max : c.reaches (max m₁ m₂) x = (c.reaches m₁ x && c.reaches m₂ x) := by
  unfold reaches
  cases c.changes[x]? with
  | none => rfl
  | some n => simp

/-- The couplings that stay are those of pairs within the thresholds. -/
theorem get?_restrict_coupling :
    (c.restrict m p).coupling.get? x y = (c.coupling.get? x y).filter (c.stays m p x y) := by
  show (c.coupling.filterMap _).get? x y = _
  rw [SparseMatrix.get?_filterMap]
  cases c.coupling.get? x y <;> rfl

/-- The joint counts that stay are those of the couplings that stay. -/
theorem get?_restrict_joint :
    (c.restrict m p).joint.get? x y =
      ((c.coupling.get? x y).filter (c.stays m p x y)).map fun _ => (c.joint.get? x y).getD 0 := by
  show (c.coupling.filterMap _).get? x y = _
  rw [SparseMatrix.get?_filterMap]
  cases c.coupling.get? x y with
  | none => rfl
  | some v =>
    rw [Option.bind_some, Option.filter_some]
    split <;> rfl

/-- A pair that stays has the joint changes that it had. -/
theorem joint_restrict {v : ω} (hv : c.coupling.get? x y = some v)
    (hs : c.stays m p x y v = true) :
    ((c.restrict m p).joint.get? x y).getD 0 = (c.joint.get? x y).getD 0 := by
  rw [get?_restrict_joint, hv, Option.filter_some, if_pos hs]
  rfl

/-- A recorded pair stays through two restrictions if it reaches what both ask for. -/
theorem stays_restrict {v : ω} (hv : c.coupling.get? x y = some v) :
    (c.stays m₁ p₁ x y v && (c.restrict m₁ p₁).stays m₂ p₂ x y v) =
      c.stays (max m₁ m₂) (fun v => p₁ v && p₂ v) x y v := by
  cases hs : c.stays m₁ p₁ x y v with
  | false =>
    rw [Bool.false_and, eq_comm, Bool.eq_false_iff]
    intro hboth
    rw [Bool.eq_false_iff] at hs
    refine hs ?_
    unfold stays at hboth ⊢
    simp only [reaches_max, Bool.and_eq_true, decide_eq_true_eq, Nat.max_le] at hboth ⊢
    tauto
  | true =>
    rw [Bool.true_and, Bool.eq_iff_iff]
    have hjoint := joint_restrict hv hs
    unfold stays at hs ⊢
    simp only [hjoint, reaches_restrict, reaches_max, Bool.and_eq_true, decide_eq_true_eq,
      Nat.max_le] at hs ⊢
    tauto

/-- What two restrictions, one after the other, leave of a cell. -/
theorem filter_stays_restrict (x y : Handle) :
    ((c.coupling.get? x y).filter (c.stays m₁ p₁ x y)).filter
        ((c.restrict m₁ p₁).stays m₂ p₂ x y) =
      (c.coupling.get? x y).filter (c.stays (max m₁ m₂) (fun v => p₁ v && p₂ v) x y) := by
  rw [Option.filter_filter]
  cases hv : c.coupling.get? x y with
  | none => rfl
  | some v => rw [Option.filter_some, Option.filter_some, ← stays_restrict hv, Bool.and_comm]

/-- Two restrictions, one after the other, are one that asks for both. -/
theorem restrict_restrict (c : Context ω) (m₁ m₂ : Nat) (p₁ p₂ : ω → Bool) :
    (c.restrict m₁ p₁).restrict m₂ p₂ =
      c.restrict (max m₁ m₂) fun v => p₁ v && p₂ v := by
  refine ext_cells rfl (fun x => ?_) ?_ (fun x y => ?_) ?_ fun x y => ?_
  · show ((c.changes.filter _).filter _)[x]? = (c.changes.filter _)[x]?
    rw [Std.ExtTreeMap.getElem?_filter', Std.ExtTreeMap.getElem?_filter',
      Std.ExtTreeMap.getElem?_filter', Option.filter_filter]
    simp only [Nat.max_le, Bool.decide_and]
  · simp [restrict, SparseMatrix.filterMap]
  · rw [get?_restrict_joint, get?_restrict_coupling, filter_stays_restrict,
      get?_restrict_joint (m := max m₁ m₂)]
    cases hkept : (c.coupling.get? x y).filter
        (c.stays (max m₁ m₂) (fun v => p₁ v && p₂ v) x y) with
    | none => rfl
    | some v =>
      rw [← filter_stays_restrict, Option.filter_eq_some_iff, Option.filter_eq_some_iff] at hkept
      exact congrArg some (joint_restrict hkept.1.1 hkept.1.2)
  · simp [restrict, SparseMatrix.filterMap]
  · rw [get?_restrict_coupling, get?_restrict_coupling, get?_restrict_coupling,
      filter_stays_restrict]

end Restrict

/-! ## Thresholds -/

section Filter

variable [Weight ω] (c : Context ω)

/-- Two filters, one after the other, are one with thresholds that reach both. -/
theorem filter_filter (m₁ m₂ : Nat) {t₁ t₂ t : ω}
    (ht : ∀ v, Weight.le t v = (Weight.le t₁ v && Weight.le t₂ v)) :
    (c.filter m₁ t₁).filter m₂ t₂ = c.filter (max m₁ m₂) t := by
  simp only [filter_eq_restrict, restrict_restrict, ← ht]

/-- Thresholds can be set in any order. -/
theorem filter_comm (m₁ m₂ : Nat) (t₁ t₂ : ω) :
    (c.filter m₁ t₁).filter m₂ t₂ = (c.filter m₂ t₂).filter m₁ t₁ := by
  simp only [filter_eq_restrict, restrict_restrict, Nat.max_comm m₂ m₁, Bool.and_comm]

/-- A filter behind a weaker one is as good as alone. -/
theorem filter_filter_of_le {m m' : Nat} {t t' : ω} (hm : m ≤ m')
    (ht : ∀ v, Weight.le t' v = true → Weight.le t v = true) :
    (c.filter m t).filter m' t' = c.filter m' t' := by
  rw [c.filter_filter m m' (t := t'), Nat.max_eq_right hm]
  intro v
  rw [Bool.eq_iff_iff, Bool.and_eq_true]
  exact ⟨fun h => ⟨ht v h, h⟩, fun h => h.2⟩

end Filter

/-! ## What higher thresholds leave -/

/-- Whether a context has nothing that another one does not have as well: entities with the same
change counts, and pairs of them with the same joint changes and coupling. -/
structure PartOf (c c' : Context ω) : Prop where
  count : ∀ x n, c.count? x = some n → c'.count? x = some n
  joint : ∀ x y n, c.jointCell? x y = some n → c'.jointCell? x y = some n
  coupling : ∀ x y v, c.couplingCell? x y = some v → c'.couplingCell? x y = some v

section Part

variable [Weight ω] {c : Context ω}

/-- What is filtered records joint changes and couplings of the same pairs. -/
theorem isSome_jointCell?_filter (c : Context ω) (m : Nat) (t : ω) (x y : QualifiedId) :
    ((c.filter m t).jointCell? x y).isSome = ((c.filter m t).couplingCell? x y).isSome := by
  rw [jointCell?_filter, couplingCell?_filter]
  cases c.couplingCell? x y with
  | none => rfl
  | some v =>
    rw [Option.bind_some, Option.bind_some]
    split <;> rfl

/-- A filter leaves a part of a context that records joint changes and couplings of the same
pairs. -/
theorem filter_partOf_self
    (hcells : ∀ x y, (c.jointCell? x y).isSome = (c.couplingCell? x y).isSome) (m : Nat) (t : ω) :
    (c.filter m t).PartOf c where
  count x n hn := by
    rw [count?_filter] at hn
    exact (Option.filter_eq_some_iff.mp hn).1
  joint x y n hn := by
    rw [jointCell?_filter, Option.bind_eq_some_iff] at hn
    obtain ⟨v, hv, hn⟩ := hn
    have hrecorded : (c.jointCell? x y).isSome = true := by
      rw [hcells, hv]
      rfl
    obtain ⟨n', hn'⟩ := Option.isSome_iff_exists.mp hrecorded
    rw [Option.ite_none_right_eq_some, hn', Option.getD_some] at hn
    rw [hn', hn.2]
  coupling x y v hv := by
    rw [couplingCell?_filter, Option.bind_eq_some_iff] at hv
    obtain ⟨v', hv', hv⟩ := hv
    rw [hv', (Option.ite_none_right_eq_some.mp hv).2]

/-- Higher thresholds leave a part of what lower ones leave. -/
theorem filter_partOf (c : Context ω) {m m' : Nat} {t t' : ω} (hm : m ≤ m')
    (ht : ∀ v, Weight.le t' v = true → Weight.le t v = true) :
    (c.filter m' t').PartOf (c.filter m t) := by
  rw [← c.filter_filter_of_le hm ht]
  exact filter_partOf_self (c.isSome_jointCell?_filter m t) m' t'

end Part

end Context

/-! ## Thresholds of an analysis -/

theorem Doubles.weight_le {x y : Float} : Weight.le x y = true ↔ x ≤ y :=
  decide_eq_true_iff

/-- What couplings reach the larger of two thresholds. -/
theorem Doubles.weight_le_max {x y : Float} (hx : x.isNaN = false) (hy : y.isNaN = false)
    (v : Float) : Weight.le (max x y) v = (Weight.le x v && Weight.le y v) := by
  rw [Bool.eq_iff_iff, Bool.and_eq_true, weight_le, weight_le, weight_le, max_le_iff hx hy]

/-- The configuration with the lowest thresholds. -/
def Config.withoutThresholds (s : Config Float) : Config Float :=
  { s with coupling := { s.coupling with minRevisions := 1, minCoupling := 0.0 } }

/-- The settings that are valid. -/
theorem CouplingSettings.fault?_eq_none_iff {ω : Type} [Weight ω] {s : CouplingSettings ω} :
    s.fault? = none ↔
      s.maxChangeSet ≠ 0 ∧ s.minRevisions ≠ 0 ∧ Weight.isNonnegative s.minCoupling = true := by
  unfold fault?
  by_cases hmax : s.maxChangeSet = 0
  · simp [hmax]
  · by_cases hmin : s.minRevisions = 0
    · simp [hmax, hmin]
    · cases Weight.isNonnegative s.minCoupling <;> simp [hmax, hmin]

/-- Without its thresholds a sound configuration is sound. -/
theorem Config.fault?_withoutThresholds {s : Config Float} (hs : s.coupling.fault? = none) :
    s.withoutThresholds.coupling.fault? = none := by
  have hzero : Weight.isNonnegative (0.0 : Float) = true := by decide +kernel
  rw [CouplingSettings.fault?_eq_none_iff] at hs ⊢
  exact ⟨hs.1, Nat.one_ne_zero, hzero⟩

/-- Thresholds of an analysis can as well be set afterwards. -/
theorem Config.context_withoutThresholds {s : Config Float} (hs : s.coupling.fault? = none)
    (history : List (Except HistoryError Revision)) :
    s.context history = (s.withoutThresholds.context history).map fun c =>
      c.filter s.coupling.minRevisions s.coupling.minCoupling := by
  obtain ⟨-, hrevisions, hcoupling⟩ := CouplingSettings.fault?_eq_none_iff.mp hs
  have hregistry : s.withoutThresholds.registry = s.registry := rfl
  have hlimit : s.withoutThresholds.coupling.maxChangeSet = s.coupling.maxChangeSet := rfl
  unfold Config.context
  rw [hs, fault?_withoutThresholds hs, hregistry, hlimit]
  cases s.registry with
  | error why => rfl
  | ok languages =>
    dsimp only
    cases (ChangeCounter.start languages s.coupling.maxChangeSet).processRead history with
    | error why => rfl
    | ok counter =>
      have hone : 1 ≤ s.coupling.minRevisions := Nat.one_le_iff_ne_zero.mpr hrevisions
      refine congrArg Except.ok (counter.context.filter_filter_of_le hone fun v hv => ?_).symm
      exact Doubles.weight_le.mpr
        (Doubles.le_trans (Doubles.weight_le.mp hcoupling) (Doubles.weight_le.mp hv))

/-- Of thresholds that are set one after the other the larger ones count. So a filter changes
nothing when it is applied again, filters can be applied in any order, and higher thresholds leave
less. The thresholds of an analysis may be set afterwards, whether it succeeds or not. -/
theorem thresholds_compose :
    (∀ (c : Context Float) (m₁ m₂ : Nat) (t₁ t₂ : Float), t₁.isNaN = false → t₂.isNaN = false →
      (c.filter m₁ t₁).filter m₂ t₂ = c.filter (max m₁ m₂) (max t₁ t₂)) ∧
    (∀ (c : Context Float) (m : Nat) (t : Float), (c.filter m t).filter m t = c.filter m t) ∧
    (∀ (c : Context Float) (m₁ m₂ : Nat) (t₁ t₂ : Float),
      (c.filter m₁ t₁).filter m₂ t₂ = (c.filter m₂ t₂).filter m₁ t₁) ∧
    (∀ (c : Context Float) (m m' : Nat) (t t' : Float), m ≤ m' → t ≤ t' →
      (c.filter m' t').PartOf (c.filter m t)) ∧
    ∀ (s : Config Float) (history : List (Except HistoryError Revision)),
      s.coupling.fault? = none →
        s.context history = (s.withoutThresholds.context history).map fun c =>
          c.filter s.coupling.minRevisions s.coupling.minCoupling := by
  refine ⟨fun c m₁ m₂ t₁ t₂ h₁ h₂ => ?_, fun c m t => ?_, fun c => c.filter_comm,
    fun c m m' t t' hm ht => ?_, fun s history hs => Config.context_withoutThresholds hs history⟩
  · exact c.filter_filter m₁ m₂ (Doubles.weight_le_max h₁ h₂)
  · exact c.filter_filter_of_le (Nat.le_refl m) fun v hv => hv
  · refine c.filter_partOf hm fun v hv => ?_
    rw [Doubles.weight_le] at hv ⊢
    exact Doubles.le_trans ht hv

/-- Three functions: the first two are changed together twice, the third once with both. -/
def threeHistory : List (Except HistoryError Revision) :=
  [.ok (.ofEdits [.editEntity sampleF, .editEntity sampleG, .editEntity sampleH]),
    .ok (.ofEdits [.editEntity sampleG, .editEntity sampleF]),
    .ok (.ofEdits [.editEntity sampleF])]

/-- Entities and pairs have to be changed twice, and pairs half of the time together. -/
def twiceSettings : Config Float :=
  { Config.default with coupling := { maxChangeSet := 100, minRevisions := 2, minCoupling := 0.5 } }

/-- Of two filters the larger thresholds count, and a pair is dropped. -/
theorem thresholds_compose_twice :
    twiceSettings.coupling.fault? = none ∧
    ∃ c, twiceSettings.withoutThresholds.context threeHistory = .ok c ∧
      (c.filter 1 0.5).filter 2 0.25 = c.filter 2 0.5 ∧
      (c.filter 2 0.5).PartOf (c.filter 1 0.25) ∧
      twiceSettings.context threeHistory = .ok (c.filter 2 0.5) ∧
      c.couplingOf sampleG sampleH = 0.5 ∧ (c.filter 2 0.5).couplingOf sampleG sampleH = 0.0 ∧
      (c.filter 2 0.5).couplingOf sampleF sampleG = 2 / 3 := by
  have hvalid : twiceSettings.coupling.fault? = none := by decide +kernel
  obtain ⟨htwo, -, -, hpart, hlate⟩ := thresholds_compose
  have hlate := hlate twiceSettings threeHistory hvalid
  have hcouplings : (twiceSettings.withoutThresholds.context threeHistory).toOption.map
      (fun c => (c.couplingOf sampleG sampleH, (c.filter 2 0.5).couplingOf sampleG sampleH,
        (c.filter 2 0.5).couplingOf sampleF sampleG)) = some (0.5, 0.0, 2 / 3) := by
    decide +kernel
  obtain ⟨c, h, hcouplings⟩ := exists_ok hcouplings
  obtain ⟨hweak, hrest⟩ := Prod.mk.inj hcouplings
  obtain ⟨hgone, hstrong⟩ := Prod.mk.inj hrest
  have hhalf : max (0.5 : Float) 0.25 = 0.5 := by decide +kernel
  have htwo := htwo c 1 2 0.5 0.25 (by decide +kernel) (by decide +kernel)
  rw [hhalf] at htwo
  rw [h] at hlate
  exact ⟨hvalid, c, h, htwo, hpart c 1 2 0.25 0.5 (by decide) (by decide +kernel), hlate,
    hweak, hgone, hstrong⟩

end Cochange
