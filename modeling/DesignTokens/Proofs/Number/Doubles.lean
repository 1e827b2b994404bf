import DesignTokens.Color.Hue
import DesignTokens.Number.Layout
import Mathlib.Algebra.Group.Nat.Defs

namespace DesignTokens.Number

/-!
# Finite doubles

A double is finite unless all bits of its exponent are set.  A product whose
factors are not large has an exponent far from that, whatever its digits are,
so that a number between 0 and 1 has a finite 255th part.
-/

open Float.Model Float.Model.UnpackedFloat

/-! Bits of the exponent. -/

/-- The bits of the exponent are not all set. -/
def HasExponent (bits : BitVec Format.binary64.numBits) : Prop :=
  unpackExponent bits ≠ -1#_

/-- What bits can stand for, with what that tells of them. -/
inductive StandsFor (bits : BitVec Format.binary64.numBits) :
    UnpackedFloat → Prop where
  | infinity (sign : Sign) : ¬ HasExponent bits → StandsFor bits (.infinity sign)
  | notANumber : ¬ HasExponent bits → StandsFor bits .notANumber
  | zero (sign : Sign) : HasExponent bits → StandsFor bits (.zero sign)
  | finite (sign : Sign) (mantissa : Nat) (exponent : Int)
      (isPositive : 0 < mantissa) :
      HasExponent bits → mantissa < 2 ^ 53 →
      StandsFor bits (.finite sign mantissa exponent isPositive)

theorem standsFor_unpack
    (bits : BitVec Format.binary64.numBits) :
    StandsFor bits (UnpackedFloat.unpack Format.binary64 bits) := by
  unfold UnpackedFloat.unpack
  dsimp only
  by_cases allSet : unpackExponent bits = -1#_
  · rw [if_pos allSet]
    by_cases noFraction : unpackMantissa bits = 0#_
    · rw [if_pos noFraction]
      exact .infinity _ (not_not_intro allSet)
    · rw [if_neg noFraction]
      exact .notANumber (not_not_intro allSet)
  · rw [if_neg allSet]
    by_cases isSmall : unpackExponent bits = 0#_
    · rw [if_pos isSmall]
      by_cases noFraction : unpackMantissa bits = 0#_
      · rw [dif_pos noFraction]
        exact .zero _ allSet
      · rw [dif_neg noFraction]
        exact .finite _ _ _ _ allSet (Nat.lt_trans (BitVec.isLt _) (by decide))
    · rw [if_neg isSmall]
      exact .finite _ _ _ _ allSet (BitVec.isLt _)

theorem isFinite_unpack_iff
    {bits : BitVec Format.binary64.numBits} :
    (UnpackedFloat.unpack Format.binary64 bits).isFinite = true ↔
      HasExponent bits := by
  have unpacked := standsFor_unpack bits
  generalize UnpackedFloat.unpack Format.binary64 bits = content at unpacked ⊢
  cases unpacked with
  | infinity _ allSet => exact iff_of_false Bool.false_ne_true allSet
  | notANumber allSet => exact iff_of_false Bool.false_ne_true allSet
  | zero _ hasExponent => exact iff_of_true rfl hasExponent
  | finite _ _ _ _ hasExponent _ => exact iff_of_true rfl hasExponent

theorem isFinite_iff
    {value : Float} :
    value.isFinite = true ↔ HasExponent value.toBits.toBitVec :=
  isFinite_unpack_iff

/-- The exact content of a finite double is a number. -/
theorem exists_finite_of_isFinite
    {value : Float}
    (isFinite : value.isFinite = true) :
    ∃ negative mantissa exponent, Binary.ofFloat value =
      .finite negative mantissa exponent := by
  have isExponent : value.toBits.toNat / powerOfTwo 52 % powerOfTwo 11 =
      (@unpackExponent Format.binary64 value.toBits.toBitVec).toNat := by
    simp [unpackExponent, Nat.shiftRight_eq_div_pow, powerOfTwo]
  have notAllSet : value.toBits.toNat / powerOfTwo 52 % powerOfTwo 11 ≠ 2047 := by
    rw [isExponent]
    intro allSet
    refine isFinite_iff.mp isFinite (BitVec.eq_of_toNat_eq ?_)
    rw [allSet]
    rfl
  unfold Binary.ofFloat Binary.ofBits
  simp only [if_neg notAllSet]
  split
  · exact ⟨_, _, _, rfl⟩
  · exact ⟨_, _, _, rfl⟩

/-- A double that equals a finite one is finite. -/
theorem isFinite_of_beq
    {left right : Float}
    (alike : (left == right) = true)
    (isFinite : left.isFinite = true) :
    right.isFinite = true := by
  have sameContent : left.toModel.unpack.beq right.toModel.unpack = true := alike
  unfold Float.isFinite Float.Model.isFinite at isFinite ⊢
  generalize left.toModel.unpack = first at sameContent isFinite
  generalize right.toModel.unpack = second at sameContent ⊢
  cases second with
  | zero => rfl
  | finite => rfl
  | notANumber => cases first <;> cases sameContent
  | infinity sign =>
      cases first with
      | infinity | notANumber => cases isFinite
      | zero => cases sign <;> cases sameContent
      | finite other => cases sign <;> cases other <;> cases sameContent

/-! Rounding. -/

theorem mantissa_shiftRight_le
    (extended : ExtendedMantissa)
    (count : Nat) :
    (extended >>> count).mantissa ≤ extended.mantissa := by
  induction count with
  | zero => exact Nat.le_refl _
  | succ count inductionHypothesis =>
      have isHalf : (extended >>> (count + 1)).mantissa =
          (extended >>> count).mantissa / 2 := rfl
      rw [isHalf]
      exact Nat.le_trans (Nat.div_le_self _ 2) inductionHypothesis

theorem roundedMantissa_le
    (extended : ExtendedMantissa) :
    extended.roundedMantissa ≤ extended.mantissa + 1 := by
  obtain ⟨mantissa, roundBit, stickyBit⟩ := extended
  cases roundBit <;> cases stickyBit
  all_goals
    simp only [ExtendedMantissa.roundedMantissa, ExtendedMantissa.accuracy,
      Accuracy.roundToNearestEven]
    omega

/--
Moving a number to its target exponent enlarges the exponent by little
more than it has to.
-/
theorem shiftToTargetExponent_le
    (mantissa : Nat)
    (exponent : Int) :
    (shiftToTargetExponent Format.binary64 mantissa exponent .exact).1.mantissa ≤
      mantissa ∧
      (shiftToTargetExponent Format.binary64 mantissa exponent .exact).2 ≤
        max exponent (max (mantissa.log2 - 52 + exponent) (-1074)) := by
  constructor
  · exact mantissa_shiftRight_le (.ofMantissaAndAccuracy mantissa .exact) _
  · have isTarget :
        Format.binary64.targetExponent (totalExponent mantissa exponent) =
          max (mantissa.log2 + 1 + exponent - 53) (-1074) := rfl
    have isMoved :
        (shiftToTargetExponent Format.binary64 mantissa exponent .exact).2 =
          exponent +
            (Format.binary64.targetExponent (totalExponent mantissa exponent) -
              exponent).toNat := rfl
    rw [isMoved, isTarget]
    omega

/-- A number with an exponent that is not large has its bits left. -/
theorem hasExponent_pack
    {sign : Sign}
    {mantissa : Nat}
    {exponent : Int}
    (isPositive : 0 < mantissa)
    (notLarge : exponent ≤ 900) :
    HasExponent
      (UnpackedFloat.pack Format.binary64
        (.finite sign mantissa exponent isPositive)) := by
  have isBias : (Format.binary64.exponentBias : Int) = 1023 := rfl
  have notFull : ¬ 2 ^ 11 ≤
      (exponent + Format.binary64.exponentBias + (52 : Nat)).toNat + 1 := by
    omega
  unfold UnpackedFloat.pack HasExponent
  dsimp only
  rw [if_neg notFull]
  split
  · rw [unpackExponent_packComponents]
    intro allSet
    have isSet := congrArg BitVec.toNat allSet
    simp at isSet
    omega
  · rw [unpackExponent_packComponents]
    decide

theorem log2_le_of_lt
    {number power : Nat}
    (isBelow : number < 2 ^ (power + 1)) :
    number.log2 ≤ power := by
  by_cases isZero : number = 0
  · simp [isZero]
  · exact Nat.lt_succ_iff.mp ((Nat.log2_lt isZero).mpr isBelow)

/-- Rounding a number that is not large leaves its exponent bits. -/
theorem hasExponent_roundWithAccuracy
    {sign : Sign}
    {mantissa : Nat}
    {exponent : Int}
    (fewDigits : mantissa < 2 ^ 110)
    (notLarge : exponent ≤ 0) :
    HasExponent (UnpackedFloat.pack Format.binary64
      (roundWithAccuracy Format.binary64 sign mantissa exponent .exact)) := by
  unfold roundWithAccuracy
  have first := shiftToTargetExponent_le mantissa exponent
  generalize shiftToTargetExponent Format.binary64 mantissa exponent .exact =
    moved at first ⊢
  obtain ⟨extended, movedExponent⟩ := moved
  simp only at first
  have second := shiftToTargetExponent_le extended.roundedMantissa movedExponent
  have isRounded := roundedMantissa_le extended
  have digits : mantissa.log2 ≤ 109 := log2_le_of_lt fewDigits
  have roundedDigits : extended.roundedMantissa.log2 ≤ 110 :=
    log2_le_of_lt (by omega)
  dsimp only
  by_cases isZero :
    (shiftToTargetExponent Format.binary64 extended.roundedMantissa movedExponent
      .exact).1.mantissa = 0
  · rw [dif_pos isZero]
    unfold UnpackedFloat.pack packedZero HasExponent
    rw [unpackExponent_packComponents]
    decide
  · rw [dif_neg isZero]
    exact hasExponent_pack _ (by omega)

/-! Numbers between 0 and 1. -/

theorem lt_iff
    {left right : Float} :
    left < right ↔ left.toModel.unpack.lt right.toModel.unpack = true := by
  change Float.lt left right = true ↔ _
  unfold Float.lt
  rw [decide_eq_true_iff]
  rfl

/--
A number between 0 and 1 is a positive mantissa whose exponent is not
above that of 1.
-/
theorem exists_mantissa_of_share
    {value : Float}
    (isPositive : 0.0 < value)
    (isBelow : value < 1.0) :
    ∃ mantissa exponent positiveMantissa,
      value.toModel.unpack = .finite .positive mantissa exponent positiveMantissa ∧
        mantissa < 2 ^ 53 ∧ exponent ≤ -52 := by
  have zero : (0.0 : Float).toModel.unpack = .zero .positive := rfl
  have one : (1.0 : Float).toModel.unpack =
      .finite .positive (2 ^ 52) (-52) (by decide) := rfl
  rw [lt_iff, zero] at isPositive
  rw [lt_iff, one] at isBelow
  have unpacked : StandsFor value.toBits.toBitVec value.toModel.unpack :=
    standsFor_unpack _
  generalize value.toModel.unpack = content at isPositive isBelow unpacked ⊢
  cases unpacked with
  | notANumber => cases isBelow
  | infinity sign =>
      cases sign
      · cases isPositive
      · cases isBelow
  | zero sign => cases isPositive
  | finite sign mantissa exponent positiveMantissa _ isShort =>
      cases sign
      · cases isPositive
      · refine ⟨mantissa, exponent, positiveMantissa, rfl, isShort, ?_⟩
        have isLess : (compare exponent (-52)).then (compare mantissa (2 ^ 52)) =
            .lt :=
          Option.some.inj (eq_of_beq isBelow)
        rw [Int.le_iff_lt_or_eq]
        rcases Ordering.then_eq_lt.mp isLess with lower | ⟨same, _⟩
        · exact .inl (Int.compare_eq_lt.mp lower)
        · exact .inr (Int.compare_eq_eq.mp same)

/-- A number between 0 and 1 is finite, and so are its 255ths. -/
theorem isFinite_of_share
    {value : Float}
    (isPositive : 0.0 < value)
    (isBelow : value < 1.0) :
    value.isFinite = true ∧ (value * 255.0).isFinite = true := by
  obtain ⟨mantissa, exponent, positiveMantissa, isUnpacked, isShort, notLarge⟩ :=
    exists_mantissa_of_share isPositive isBelow
  have factor : (255.0 : Float).toModel.unpack =
      .finite .positive (255 * 2 ^ 45) (-45) (by decide) := rfl
  constructor
  · unfold Float.isFinite Float.Model.isFinite
    rw [isUnpacked]
    rfl
  · have isProduct :
        (value * 255.0).toBits.toBitVec =
          UnpackedFloat.pack Format.binary64
            (UnpackedFloat.mul Format.binary64 value.toModel.unpack
              (255.0 : Float).toModel.unpack) :=
      rfl
    rw [isFinite_iff, isProduct, isUnpacked, factor]
    exact hasExponent_roundWithAccuracy (by omega) (by omega)

end DesignTokens.Number
