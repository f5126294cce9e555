import Cochange.Proofs.Contexts.Doubles
import Cochange.Proofs.Heap.Spec

/-!
# Doubles in the order of their bits

Weights are sorted in the total order of doubles, while `<` compares numbers. A value of `Float`
that is a number stands at a level (`Doubles.level`), and the levels are in the order of the places
that the bits tell (`levelAt_mono`). So the comparison of `Float` is that of the doubles as they are
stored (`weight_lt_ofFloat`), and what there is to say about the two comparisons is said of all 64
bits.

For numbers they differ only in that -0.0 comes before 0.0 in the order without being less. And NaN,
which comes first or last in the order, by its sign, is neither less nor more than anything
(`orderKey_lt_iff`). So it can be said which keys an item of a heap may be given
(`comparable_iff`).
-/

namespace Cochange

namespace Doubles

open Decimal (signBit hiddenBit magnitude infiniteMagnitude place orderKeyOfBits)
open Float.Model (UnpackedFloat)
open Float.Model.UnpackedFloat (Sign unpackMantissa unpackExponent unpackSign)

/-! ## The parts of the bits -/

/-- The bits of NaN among the values of `Float`, where there is but one. -/
def nanBits : Nat := 2047 * hiddenBit + 2251799813685248

/-- On which side of zero the bits stand. -/
def signOf (bits : Nat) : Sign :=
  if signBit ≤ bits then .negative else .positive

/-- What the bits of a double stand for, by their magnitude. The field of the exponent counts as one
where it has no bits. -/
inductive Decoded (bits : Nat) : UnpackedFloat → Prop
  | notANumber (h : bits = nanBits) : Decoded bits .notANumber
  | infinity (h : magnitude bits = infiniteMagnitude) : Decoded bits (.infinity (signOf bits))
  | zero (h : magnitude bits = 0) : Decoded bits (.zero (signOf bits))
  | finite (field mantissa : Nat) (hpos : 0 < mantissa)
      (hfield : field = max (magnitude bits / hiddenBit) 1)
      (hmantissa : mantissa + (field - 1) * hiddenBit = magnitude bits)
      (h : magnitude bits < infiniteMagnitude) :
      Decoded bits (.finite (signOf bits) mantissa (field - 1075) hpos)

/-- The mantissa is what lies below the hidden bit. -/
theorem toNat_mantissa (bits : UInt64) :
    (@unpackMantissa .binary64 bits.toBitVec).toNat = bits.toNat % hiddenBit := by
  simp [unpackMantissa, hiddenBit]

theorem mantissa_eq_zero_iff (bits : UInt64) :
    @unpackMantissa .binary64 bits.toBitVec = 0#_ ↔ bits.toNat % hiddenBit = 0 := by
  rw [← BitVec.toNat_inj, toNat_mantissa]
  rfl

/-- The exponent is read from the eleven bits above the mantissa. -/
theorem toNat_exponent (bits : UInt64) :
    (@unpackExponent .binary64 bits.toBitVec).toNat = bits.toNat / hiddenBit % 2048 := by
  simp [unpackExponent, hiddenBit, Nat.shiftRight_eq_div_pow]

theorem exponent_eq_zero_iff (bits : UInt64) :
    @unpackExponent .binary64 bits.toBitVec = 0#_ ↔ bits.toNat / hiddenBit % 2048 = 0 := by
  rw [← BitVec.toNat_inj, toNat_exponent]
  rfl

/-- The exponent of the infinities and of NaN has all its bits set. -/
theorem exponent_eq_ones_iff (bits : UInt64) :
    @unpackExponent .binary64 bits.toBitVec = -1#_ ↔ bits.toNat / hiddenBit % 2048 = 2047 := by
  rw [← BitVec.toNat_inj, toNat_exponent]
  rfl

/-- The exponent of a number whose field of the exponent has bits. -/
theorem toInt_exponent (bits : UInt64) :
    ((@unpackExponent .binary64 bits.toBitVec).toNat : Int) -
      (Float.Model.Format.binary64.exponentBias + (52 : Nat)) =
        ((bits.toNat / hiddenBit % 2048 : Nat) : Int) - 1075 := by
  rw [toNat_exponent]
  rfl

/-- The sign of a pattern is its highest bit. -/
theorem ofBitVec_sign (bits : UInt64) :
    Sign.ofBitVec (@unpackSign .binary64 bits.toBitVec) = signOf bits.toNat := by
  have hlt := bits.toNat_lt
  have hsign : (@unpackSign .binary64 bits.toBitVec).toNat = bits.toNat / signBit % 2 := by
    show (BitVec.cast _ (bits.toBitVec.extractLsb 63 63)).toNat = _
    simp [signBit, Nat.shiftRight_eq_div_pow]
  have hpositive : @unpackSign .binary64 bits.toBitVec = 0#1 ↔ ¬signBit ≤ bits.toNat := by
    rw [← BitVec.toNat_inj, hsign, BitVec.toNat_ofNat]
    unfold signBit
    omega
  simp only [Sign.ofBitVec, signOf, hpositive, ite_not]

theorem toNat_one_append {w : Nat} (v : BitVec w) : (1#1 ++ v).toNat = 2 ^ w + v.toNat := by
  rw [BitVec.toNat_append, ← Nat.shiftLeft_add_eq_or_of_lt v.isLt, Nat.shiftLeft_eq]
  simp

/-- The field of the exponent and the fraction below it make up the magnitude. -/
theorem magnitude_eq (bits : Nat) :
    magnitude bits = bits / hiddenBit % 2048 * hiddenBit + bits % hiddenBit := by
  unfold magnitude signBit hiddenBit
  omega

/-- The 64 bits of a double tell its class, its sign and its magnitude as the kernel unpacks it. -/
theorem decoded (x : Float) : Decoded x.toBits.toNat x.toModel.unpack := by
  have hm := toNat_mantissa x.toBits
  have hs := ofBitVec_sign x.toBits
  have hones := exponent_eq_ones_iff x.toBits
  have hnone := exponent_eq_zero_iff x.toBits
  have hfraction := mantissa_eq_zero_iff x.toBits
  have hexponent := toInt_exponent x.toBits
  have hmagnitude := magnitude_eq x.toBits.toNat
  have hk : x.toBits.toNat / hiddenBit % 2048 < 2048 := Nat.mod_lt _ (by decide)
  have hf : x.toBits.toNat % hiddenBit < hiddenBit := Nat.mod_lt _ (by decide)
  have hvalid : Float.Model.Format.binary64.Valid x.toBits.toBitVec := x.toModel.valid
  have hn : x.toBits.toBitVec.toNat = x.toBits.toNat := rfl
  show Decoded x.toBits.toNat (UnpackedFloat.unpack .binary64 x.toBits.toBitVec)
  generalize x.toBits.toBitVec = b at *
  generalize x.toBits.toNat = n at *
  generalize n / hiddenBit % 2048 = k at *
  generalize n % hiddenBit = f at *
  unfold hiddenBit at hmagnitude hf
  show Decoded n (
    if @unpackExponent .binary64 b = -1#_ then
      if @unpackMantissa .binary64 b = 0#_ then .infinity (Sign.ofBitVec (@unpackSign .binary64 b))
      else .notANumber
    else if @unpackExponent .binary64 b = 0#_ then
      if _ : @unpackMantissa .binary64 b = 0#_ then .zero (Sign.ofBitVec (@unpackSign .binary64 b))
      else .finite (Sign.ofBitVec (@unpackSign .binary64 b)) (@unpackMantissa .binary64 b).toNat _ _
    else .finite (Sign.ofBitVec (@unpackSign .binary64 b)) (1#1 ++ @unpackMantissa .binary64 b).toNat
      _ _)
  rw [hs]
  by_cases hk2047 : k = 2047
  · rw [if_pos (hones.mpr hk2047)]
    by_cases hf0 : f = 0
    · rw [if_pos (hfraction.mpr hf0)]
      refine .infinity ?_
      rw [hmagnitude, hk2047, hf0]
      rfl
    · rw [if_neg (mt hfraction.mp hf0)]
      refine .notANumber ?_
      rw [← hn, hvalid.eq_packedNaN (hones.mpr hk2047) (mt hfraction.mp hf0)]
      rfl
  · rw [if_neg (mt hones.mp hk2047)]
    by_cases hk0 : k = 0
    · rw [if_pos (hnone.mpr hk0)]
      by_cases hf0 : f = 0
      · rw [dif_pos (hfraction.mpr hf0)]
        refine .zero ?_
        rw [hmagnitude, hk0, hf0]
      -- without bits of the exponent the field counts as one
      · rw [dif_neg (mt hfraction.mp hf0), hexponent, hk0]
        refine .finite 1 _ _ ?_ ?_ ?_
        · unfold hiddenBit
          omega
        · rw [hm]
          omega
        · unfold infiniteMagnitude hiddenBit
          omega
    · rw [if_neg (mt hnone.mp hk0), hexponent]
      refine .finite k _ _ ?_ ?_ ?_
      · unfold hiddenBit
        omega
      · rw [toNat_one_append, hm]
        show 4503599627370496 + f + (k - 1) * 4503599627370496 = magnitude n
        omega
      · unfold infiniteMagnitude hiddenBit
        omega

/-- No number is farther from zero than the infinities. -/
theorem Decoded.magnitude_le {bits : Nat} {u : UnpackedFloat} (h : Decoded bits u)
    (hu : u ≠ .notANumber) : magnitude bits ≤ infiniteMagnitude := by
  cases h with
  | notANumber => exact absurd rfl hu
  | infinity h => exact h.le
  | zero h => exact h ▸ Nat.zero_le _
  | finite _ _ _ _ _ h => exact h.le

/-! ## Levels -/

/-- The level of a double that is not negative, by its magnitude. -/
def levelOf (magnitude : Nat) : Int × Int × Int :=
  let field := max (magnitude / hiddenBit) 1
  if magnitude = 0 then (0, 0, 0)
  else if magnitude = infiniteMagnitude then (2, 0, 0)
  else (1, field - 1075, (magnitude - (field - 1) * hiddenBit : Nat))

/-- The same distance on the other side of zero. -/
def opposite (p : Int × Int × Int) : Int × Int × Int :=
  (-p.1, -p.2.1, -p.2.2)

/-- The level at a place. -/
def levelAt (z : Int) : Int × Int × Int :=
  if z < 0 then opposite (levelOf z.natAbs) else levelOf z.natAbs

/-- Off zero the sign of the bits tells on which side the place is. -/
theorem levelAt_place {bits : Nat} (hpos : 0 < magnitude bits) :
    (signOf bits = .negative ∧ levelAt (place bits) = opposite (levelOf (magnitude bits))) ∨
      signOf bits = .positive ∧ levelAt (place bits) = levelOf (magnitude bits) := by
  unfold signOf levelAt place
  by_cases hs : signBit ≤ bits
  · rw [if_pos hs, if_pos hs, if_pos (by omega), Int.natAbs_neg, Int.natAbs_natCast]
    exact Or.inl ⟨rfl, rfl⟩
  · rw [if_neg hs, if_neg hs, if_neg (by omega), Int.natAbs_natCast]
    exact Or.inr ⟨rfl, rfl⟩

/-- The level of a double is that of its place. -/
theorem Decoded.level_eq {bits : Nat} {u : UnpackedFloat} (h : Decoded bits u)
    (hu : u ≠ .notANumber) : level u = levelAt (place bits) := by
  cases h with
  | notANumber => exact absurd rfl hu
  | infinity h =>
    have hoff : 0 < magnitude bits := by
      rw [h]
      decide
    rcases levelAt_place hoff with ⟨hs, hl⟩ | ⟨hs, hl⟩
    · rw [hs, hl, h]
      rfl
    · rw [hs, hl, h]
      rfl
  | zero h =>
    have hplace : place bits = 0 := by
      unfold place
      rw [h]
      exact ite_self 0
    rw [hplace]
    rfl
  | finite field mantissa hpos hfield hmantissa h =>
    have hlevel : levelOf (magnitude bits) = (1, (field : Int) - 1075, (mantissa : Int)) := by
      unfold levelOf
      rw [if_neg (by omega), if_neg (by omega), ← hfield, ← hmantissa, Nat.add_sub_cancel]
    have hoff : 0 < magnitude bits := by omega
    rcases levelAt_place hoff with ⟨hs, hl⟩ | ⟨hs, hl⟩
    · rw [hs, hl, hlevel]
      rfl
    · rw [hs, hl, hlevel]
      rfl

/-- Levels are compared by class first, then by exponent, then by mantissa. -/
theorem levelOrder_eq_lt {p q : Int × Int × Int} : levelOrder p q = .lt ↔
    p.1 < q.1 ∨ p.1 = q.1 ∧ (p.2.1 < q.2.1 ∨ p.2.1 = q.2.1 ∧ p.2.2 < q.2.2) := by
  simp only [levelOrder, Ordering.then_eq_lt, Int.compare_eq_lt, Int.compare_eq_eq]

/-- Changing both signs turns the order of levels around. -/
theorem levelOrder_opposite {p q : Int × Int × Int} :
    levelOrder (opposite p) (opposite q) = .lt ↔ levelOrder q p = .lt := by
  rw [levelOrder_eq_lt, levelOrder_eq_lt]
  dsimp only [opposite]
  omega

/-- A magnitude has no negative level, and only zero is on the level of zero. -/
theorem levelOf_nonneg (m : Nat) : 0 ≤ (levelOf m).1 ∧ (0 < m → 0 < (levelOf m).1) := by
  unfold levelOf
  split
  next h0 => exact ⟨le_rfl, fun hpos => absurd h0 hpos.ne'⟩
  next =>
    split
    next => exact ⟨by decide, fun _ => by decide⟩
    next => exact ⟨Int.one_nonneg, fun _ => Int.one_pos⟩

/-- A larger magnitude stands at a higher level. -/
theorem levelOf_mono {m n : Nat} (hmn : m < n) (hn : n ≤ infiniteMagnitude) :
    levelOrder (levelOf m) (levelOf n) = .lt := by
  rw [levelOrder_eq_lt]
  by_cases hm0 : m = 0
  · rw [hm0]
    exact Or.inl ((levelOf_nonneg n).2 (by omega))
  · unfold levelOf
    rw [if_neg hm0, if_neg (show n ≠ 0 by omega), if_neg (show m ≠ infiniteMagnitude by omega)]
    split
    next => exact Or.inl (show (1 : Int) < 2 by decide)
    next =>
      -- between numbers with the same bits of the exponent the others decide
      unfold infiniteMagnitude hiddenBit at *
      dsimp only
      omega

/-- Places are in the order of their levels. -/
theorem levelAt_mono {y z : Int} (hyz : y < z) (hy : -infiniteMagnitude ≤ y)
    (hz : z ≤ infiniteMagnitude) : levelOrder (levelAt y) (levelAt z) = .lt := by
  unfold levelAt
  by_cases hz0 : z < 0
  · rw [if_pos (show y < 0 by omega), if_pos hz0, levelOrder_opposite]
    exact levelOf_mono (by omega) (by omega)
  · rw [if_neg hz0]
    by_cases hy0 : y < 0
    · rw [if_pos hy0, levelOrder_eq_lt]
      have hbelow := (levelOf_nonneg y.natAbs).2 (by omega)
      have habove := (levelOf_nonneg z.natAbs).1
      refine Or.inl ?_
      dsimp only [opposite]
      omega
    · rw [if_neg hy0]
      exact levelOf_mono (by omega) (by omega)

/-! ## Values as they are stored -/

variable {x y : Float}

/-- The NaN of the logic has one pattern. -/
theorem toBits_of_isNaN (hx : x.isNaN = true) : x.toBits.toNat = nanBits := by
  have hnan : x.toModel.unpack = .notANumber := by
    by_contra hne
    rw [isNaN_eq_false.mpr hne] at hx
    cases hx
  have hdecoded := decoded x
  rw [hnan] at hdecoded
  cases hdecoded with
  | notANumber h => exact h

/-- Only the bits of NaN are beyond those of the infinities. -/
theorem isNaN_ofFloat (x : Float) : (DoubleBits.ofFloat x).isNaN = x.isNaN := by
  cases hx : x.isNaN with
  | true =>
    refine decide_eq_true ?_
    show infiniteMagnitude < magnitude x.toBits.toNat
    rw [toBits_of_isNaN hx]
    decide
  | false => exact decide_eq_false ((decoded x).magnitude_le (isNaN_eq_false.mp hx)).not_gt

/-- A number stands between the two infinities. -/
theorem place_bounds (hx : x.isNaN = false) :
    -infiniteMagnitude ≤ place x.toBits.toNat ∧ place x.toBits.toNat ≤ infiniteMagnitude := by
  have hle := (decoded x).magnitude_le (isNaN_eq_false.mp hx)
  unfold place
  split <;> omega

/-- Numbers are compared by their places. -/
theorem lt_iff_place (hx : x.isNaN = false) (hy : y.isNaN = false) :
    x < y ↔ place x.toBits.toNat < place y.toBits.toNat := by
  rw [lt_iff, hx, hy, (decoded x).level_eq (isNaN_eq_false.mp hx),
    (decoded y).level_eq (isNaN_eq_false.mp hy)]
  have hxb := place_bounds hx
  have hyb := place_bounds hy
  constructor
  · rintro ⟨-, -, hlt⟩
    by_contra hge
    rcases Int.lt_or_eq_of_le (Int.not_lt.mp hge) with hgt | heq
    · have hgt' := levelAt_mono hgt hyb.1 hxb.2
      rw [Std.OrientedCmp.gt_iff_lt.mpr hlt] at hgt'
      cases hgt'
    · rw [heq] at hlt
      exact (irrefl_lt levelOrder).irrefl _ hlt
  · exact fun hlt => ⟨rfl, rfl, levelAt_mono hlt hxb.1 hyb.2⟩

/-- The values of `Float` are compared as they are stored. -/
theorem weight_lt_ofFloat (x y : Float) :
    Weight.lt (DoubleBits.ofFloat x) (.ofFloat y) = Weight.lt x y := by
  show (!(DoubleBits.ofFloat x).isNaN && !(DoubleBits.ofFloat y).isNaN &&
    decide (place x.toBits.toNat < place y.toBits.toNat)) = decide (x < y)
  rw [isNaN_ofFloat, isNaN_ofFloat]
  cases hx : x.isNaN with
  | true =>
    refine (decide_eq_false fun hlt => ?_).symm
    rw [lt_iff, hx] at hlt
    cases hlt.1
  | false =>
    cases hy : y.isNaN with
    | true =>
      refine (decide_eq_false fun hlt => ?_).symm
      rw [lt_iff, hy] at hlt
      cases hlt.2.1
    | false => exact decide_eq_decide.mpr (lt_iff_place hx hy).symm

end Doubles

/-! ## The two comparisons -/

namespace DoubleBits

open Decimal (signBit hiddenBit magnitude infiniteMagnitude place orderKeyOfBits)

/-- The total order of doubles is that of their keys. -/
instance transCmp_order : Std.TransCmp (Weight.order : DoubleBits → DoubleBits → Ordering) :=
  transCmp_on compare orderKey

variable {x y : DoubleBits}

theorem ext_bits (h : x.bits.toNat = y.bits.toNat) : x = y := by
  obtain ⟨a⟩ := x
  obtain rfl := UInt64.toNat_inj.mp h
  rfl

/-- A double that comes before another one without being less: one of the two is NaN, or -0.0 comes
before 0.0. -/
def ComesUnseen (x y : DoubleBits) : Prop :=
  (x.isNaN = true ∨ y.isNaN = true) ∧ x.orderKey < y.orderKey ∨
    x = -0.0 ∧ y = 0.0

instance decidable_comesUnseen : DecidableRel ComesUnseen :=
  fun _ _ => inferInstanceAs (Decidable (_ ∨ _))

/-- Patterns are compared by place, and a NaN is below nothing and above nothing. -/
theorem lt_iff : x.lt y = true ↔
    x.isNaN = false ∧ y.isNaN = false ∧ place x.bits.toNat < place y.bits.toNat := by
  simp only [lt, Bool.and_eq_true, Bool.not_eq_true', decide_eq_true_iff, and_assoc]

/-- The two zeros stand at one place, and in the order -0.0 comes first. Apart from that the order
is that of places, for NaN as well. -/
theorem orderKey_lt_iff_place : x.orderKey < y.orderKey ↔
    place x.bits.toNat < place y.bits.toNat ∨ x = -0.0 ∧ y = 0.0 := by
  constructor
  · intro hlt
    by_cases hplace : place x.bits.toNat < place y.bits.toNat
    · exact Or.inl hplace
    -- at the same place, one of the two is negative
    · have hsigns : x.bits.toNat = signBit ∧ y.bits.toNat = 0 := by
        have hxlt := x.bits.toNat_lt
        have hylt := y.bits.toNat_lt
        unfold orderKey orderKeyOfBits at hlt
        unfold place magnitude signBit at *
        split at hlt <;> split at hlt <;> omega
      exact Or.inr ⟨ext_bits hsigns.1, ext_bits hsigns.2⟩
  · intro h
    rcases h with hplace | ⟨rfl, rfl⟩
    · unfold orderKey orderKeyOfBits
      unfold place magnitude signBit at *
      have hxlt := x.bits.toNat_lt
      have hylt := y.bits.toNat_lt
      split at hplace <;> split at hplace <;> omega
    · decide

/-- A double comes before those that it is less than, and before some others. -/
theorem orderKey_lt_iff : x.orderKey < y.orderKey ↔ x.lt y = true ∨ ComesUnseen x y := by
  constructor
  · intro hkey
    by_cases hnan : x.isNaN = true ∨ y.isNaN = true
    · exact Or.inr (Or.inl ⟨hnan, hkey⟩)
    · rw [not_or, Bool.not_eq_true, Bool.not_eq_true] at hnan
      rcases orderKey_lt_iff_place.mp hkey with hplace | hzeros
      · exact Or.inl (lt_iff.mpr ⟨hnan.1, hnan.2, hplace⟩)
      · exact Or.inr (Or.inr hzeros)
  · intro h
    rcases h with hlt | ⟨-, hkey⟩ | hzeros
    · exact orderKey_lt_iff_place.mpr (Or.inl (lt_iff.mp hlt).2.2)
    · exact hkey
    · exact orderKey_lt_iff_place.mpr (Or.inr hzeros)

/-- What comes unseen does not compare as smaller, so the item is not sifted up. -/
theorem ComesUnseen.not_lt (h : ComesUnseen x y) : x.lt y = false := by
  rw [Bool.eq_false_iff]
  intro hlt
  obtain ⟨hx, hy, hplace⟩ := lt_iff.mp hlt
  rcases h with ⟨hnan | hnan, -⟩ | ⟨rfl, rfl⟩
  · exact Bool.false_ne_true (hx.symm.trans hnan)
  · exact Bool.false_ne_true (hy.symm.trans hnan)
  · exact absurd hplace (by decide)

/-- An item may be given any key but one that comes unseen. -/
theorem comparable_iff : MinHeap.Comparable x y ↔ ¬ComesUnseen x y := by
  have horder : Weight.order x y = .lt ↔ x.orderKey < y.orderKey := Int.compare_eq_lt
  have hless : Weight.lt x y = x.lt y := rfl
  unfold MinHeap.Comparable
  rw [horder, hless, orderKey_lt_iff]
  constructor
  · intro h hunseen
    exact Bool.false_ne_true (hunseen.not_lt.symm.trans (h.mpr (Or.inr hunseen)))
  · exact fun hseen => ⟨Or.inl, fun h => h.resolve_right hseen⟩

/-! ## Values of `Float` -/

open Doubles (nanBits)

variable {a b : Float}

/-- Two doubles of one pattern are one double. -/
theorem ofFloat_injective (h : ofFloat a = ofFloat b) : a = b := by
  obtain ⟨⟨bits, hbits⟩⟩ := a
  obtain ⟨⟨bits', hbits'⟩⟩ := b
  obtain rfl : bits = bits' := congrArg DoubleBits.bits h
  rfl

/-- The NaN of the logic is the positive one, so its key is its pattern. -/
theorem orderKey_of_isNaN (ha : a.isNaN = true) : (ofFloat a).orderKey = nanBits := by
  show orderKeyOfBits a.toBits.toNat = nanBits
  rw [Doubles.toBits_of_isNaN ha]
  rfl

/-- The NaN of `Float` comes last. -/
theorem orderKey_lt_nan (ha : a.isNaN = false) : (ofFloat a).orderKey < nanBits := by
  have hle := (Doubles.place_bounds ha).2
  show orderKeyOfBits a.toBits.toNat < nanBits
  unfold place magnitude infiniteMagnitude at hle
  unfold orderKeyOfBits nanBits
  unfold signBit hiddenBit at *
  split at hle <;> omega

/-- Among the values of `Float` these are a number before NaN, and -0.0 before 0.0. -/
theorem comesUnseen_ofFloat : ComesUnseen (ofFloat a) (ofFloat b) ↔
    a.isNaN = false ∧ b.isNaN = true ∨ a = -0.0 ∧ b = 0.0 := by
  have hzero : ofFloat a = -0.0 ∧ ofFloat b = 0.0 ↔ a = -0.0 ∧ b = 0.0 := by
    have hnegative : (-0.0 : DoubleBits) = ofFloat (-0.0) := by decide
    rw [hnegative]
    exact and_congr ⟨ofFloat_injective, congrArg ofFloat⟩ ⟨ofFloat_injective, congrArg ofFloat⟩
  unfold ComesUnseen
  rw [hzero, Doubles.isNaN_ofFloat, Doubles.isNaN_ofFloat]
  refine or_congr_left ?_
  cases ha : a.isNaN with
  | true =>
    refine iff_of_false (fun h => ?_) (fun h => Bool.noConfusion h.1)
    have hlt := h.2
    rw [orderKey_of_isNaN ha] at hlt
    cases hb : b.isNaN with
    | true => exact absurd hlt (orderKey_of_isNaN hb).not_gt
    | false => exact absurd hlt (orderKey_lt_nan hb).not_gt
  | false =>
    cases hb : b.isNaN with
    | true =>
      have hlast : (ofFloat a).orderKey < (ofFloat b).orderKey := by
        rw [orderKey_of_isNaN hb]
        exact orderKey_lt_nan ha
      exact iff_of_true ⟨Or.inr rfl, hlast⟩ ⟨rfl, rfl⟩
    | false => simp

/-- Whether a key can be changed does not depend on how doubles are represented. -/
theorem comparable_ofFloat :
    MinHeap.Comparable (ofFloat a) (ofFloat b) ↔ MinHeap.Comparable a b := by
  unfold MinHeap.Comparable
  rw [Doubles.weight_lt_ofFloat]
  exact Iff.rfl

end DoubleBits

end Cochange
