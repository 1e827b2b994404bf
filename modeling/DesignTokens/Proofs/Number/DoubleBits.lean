import DesignTokens.Proofs.Number.Doubles
import DesignTokens.Proofs.Number.NearestDoubles
import Mathlib

namespace DesignTokens.Number

/-!
# Doubles and their nearest numbers

The exact content of a double and its bits determine each other, and a double is
the nearest one of every number in its rounding interval.  Conversely, a finite
double that is nearest to a number is no farther from it than half a unit.
-/

open Float.Model Float.Model.UnpackedFloat

theorem powerOfTwo_eleven :
    powerOfTwo 11 = 2048 := by
  decide

theorem powerOfTwo_fiftyTwo :
    powerOfTwo 52 = 4503599627370496 := by
  decide

theorem powerOfTwo_sixtyThree :
    powerOfTwo 63 = 9223372036854775808 := by
  decide

/-- Bits of a sign and of a size. -/
def signedBits (negative : Bool) (bits : Nat) : Nat :=
  if negative then powerOfTwo 63 + bits else bits

theorem nearestFloat_eq
    (negative : Bool)
    (numerator denominator : Nat) :
    nearestFloat negative numerator denominator =
      Float.ofBits
        (UInt64.ofNat (signedBits negative (nearestBits numerator denominator))) :=
  rfl

/-! Reading bits. -/

/-- The bits of a finite double are those of its sign and of its size. -/
theorem eq_signedBits_of_finite
    {bits mantissa : Nat}
    {negative : Bool}
    {exponent : Int}
    (isBelow : bits < 2 ^ 64)
    (isFinite : Binary.ofBits bits = .finite negative mantissa exponent) :
    IsCanonical mantissa exponent ∧
      bits = signedBits negative (bitsOf exponent mantissa) := by
  unfold Binary.ofBits at isFinite
  simp only [powerOfTwo_eleven, powerOfTwo_fiftyTwo,
    powerOfTwo_sixtyThree] at isFinite
  split at isFinite
  · split at isFinite <;> cases isFinite
  · rename_i notFull
    split at isFinite
    · rename_i isSmall
      obtain ⟨rfl, rfl, rfl⟩ := Binary.finite.inj isFinite
      refine ⟨⟨by omega, by omega, by omega, .inl rfl⟩, ?_⟩
      simp only [signedBits, bitsOf, powerOfTwo_fiftyTwo, powerOfTwo_sixtyThree,
        beq_iff_eq]
      split <;> split <;> omega
    · rename_i notSmall
      obtain ⟨rfl, rfl, rfl⟩ := Binary.finite.inj isFinite
      have isBiased : bits / 4503599627370496 % 2048 < 2048 :=
        Nat.mod_lt _ (by decide)
      simp only [Int.ofNat_eq_natCast] at *
      refine ⟨⟨by omega, by omega, by omega, .inr (by omega)⟩, ?_⟩
      simp only [signedBits, bitsOf, powerOfTwo_fiftyTwo, powerOfTwo_sixtyThree,
        beq_iff_eq]
      split <;> split <;> (try split) <;> omega

/-- The size of a double with 53 binary digits or fewer. -/
theorem bitsOf_of_isCanonical
    {mantissa : Nat}
    {exponent : Int}
    (isCanonical : IsCanonical mantissa exponent) :
    bitsOf exponent mantissa < 2047 * powerOfTwo 52 ∧
      (mantissa < powerOfTwo 52 ∧ exponent = -1074 ∧
        bitsOf exponent mantissa = mantissa ∨
        powerOfTwo 52 ≤ mantissa ∧ bitsOf exponent mantissa =
          (exponent + 1075).toNat * powerOfTwo 52 +
            (mantissa - powerOfTwo 52)) := by
  obtain ⟨isShort, notLow, notHigh, isFull⟩ := isCanonical
  simp only [bitsOf, powerOfTwo_fiftyTwo]
  by_cases isSmall : mantissa < 4503599627370496
  · rw [if_pos isSmall]
    omega
  · have isBelow :
        (exponent + 1075).toNat * 4503599627370496 + (mantissa - 4503599627370496) <
          2047 * 4503599627370496 := by
      omega
    rw [if_neg isSmall, if_pos isBelow]
    omega

theorem ofBits_signedBits
    {mantissa : Nat}
    {exponent : Int}
    (isCanonical : IsCanonical mantissa exponent)
    (negative : Bool) :
    Binary.ofBits (signedBits negative (bitsOf exponent mantissa)) =
      .finite negative mantissa exponent := by
  obtain ⟨isBelow, isForm⟩ := bitsOf_of_isCanonical isCanonical
  obtain ⟨isShort, notLow, notHigh, isFull⟩ := isCanonical
  generalize bitsOf exponent mantissa = size at isBelow isForm
  have isSign : (signedBits negative size / powerOfTwo 63 % 2 == 1) = negative := by
    simp only [signedBits, powerOfTwo_sixtyThree, powerOfTwo_fiftyTwo] at *
    cases negative <;> simp <;> omega
  have isBiased : signedBits negative size / powerOfTwo 52 % powerOfTwo 11 =
      size / powerOfTwo 52 := by
    simp only [signedBits, powerOfTwo_sixtyThree, powerOfTwo_fiftyTwo,
      powerOfTwo_eleven] at *
    split <;> omega
  have isFraction :
      signedBits negative size % powerOfTwo 52 = size % powerOfTwo 52 := by
    simp only [signedBits, powerOfTwo_sixtyThree, powerOfTwo_fiftyTwo] at *
    split <;> omega
  unfold Binary.ofBits
  simp only [isSign, isBiased, isFraction]
  simp only [powerOfTwo_fiftyTwo] at *
  rw [if_neg (by omega)]
  rcases isForm with ⟨isSmall, isLowest, isSize⟩ | ⟨isLarge, isSize⟩
  · rw [if_pos (by omega)]
    congr 1 <;> omega
  · rw [if_neg (by omega), Int.ofNat_eq_natCast]
    congr 1 <;> omega

/-- The bits past the largest double are those of infinity. -/
theorem ofBits_infinite
    (negative : Bool) :
    Binary.ofBits (signedBits negative (2047 * powerOfTwo 52)) =
      .infinite negative := by
  cases negative <;> rfl

/-! Bits of doubles. -/

theorem toBits_ofBits
    {bits : UInt64}
    (isNumber : bits.toNat / powerOfTwo 52 % powerOfTwo 11 = 2047 →
      bits.toNat % powerOfTwo 52 = 0) :
    (Float.ofBits bits).toBits = bits := by
  have isExponent : (@unpackExponent Format.binary64 bits.toBitVec).toNat =
      bits.toNat / powerOfTwo 52 % powerOfTwo 11 := by
    simp [unpackExponent, Nat.shiftRight_eq_div_pow, powerOfTwo]
  have isMantissa : (@unpackMantissa Format.binary64 bits.toBitVec).toNat =
      bits.toNat % powerOfTwo 52 := by
    simp [unpackMantissa, powerOfTwo]
  have notUndefined : @isNaNBits Format.binary64 bits.toBitVec = false := by
    rw [isNaNBits, decide_eq_false_iff_not]
    rintro ⟨allSet, hasFraction⟩
    refine hasFraction (BitVec.eq_of_toNat_eq ?_)
    rw [isMantissa, isNumber]
    · rfl
    · rw [← isExponent, allSet]
      rfl
  have isPacked := @pack_unpack Format.binary64 bits.toBitVec (by decide)
  rw [notUndefined] at isPacked
  exact congrArg UInt64.ofBitVec (isPacked.trans (if_neg Bool.false_ne_true))

/-- The exact content of a double is read off the bits that it is made of. -/
theorem ofFloat_ofBits
    {bits : Nat}
    (isBelow : bits < 2 ^ 64)
    (isNumber : Binary.ofBits bits ≠ .notANumber) :
    Binary.ofFloat (Float.ofBits (UInt64.ofNat bits)) = Binary.ofBits bits := by
  have isSame : (UInt64.ofNat bits).toNat = bits := by
    rw [UInt64.toNat_ofNat']
    exact Nat.mod_eq_of_lt isBelow
  rw [Binary.ofFloat, toBits_ofBits, isSame]
  rw [isSame]
  intro allSet
  by_contra hasFraction
  refine isNumber ?_
  unfold Binary.ofBits
  simp only
  rw [if_pos allSet, if_neg hasFraction]

theorem signedBits_lt
    {bits : Nat}
    (isBelow : bits ≤ 2047 * powerOfTwo 52)
    (negative : Bool) :
    signedBits negative bits < 2 ^ 64 := by
  simp only [signedBits, powerOfTwo_fiftyTwo, powerOfTwo_sixtyThree] at *
  split <;> omega

theorem bitsOf_le
    (exponent : Int)
    (mantissa : Nat) :
    bitsOf exponent mantissa ≤ 2047 * powerOfTwo 52 := by
  unfold bitsOf
  simp only [powerOfTwo_fiftyTwo]
  split
  · omega
  · split <;> omega

/-- A finite double is made of its sign and its size. -/
theorem ofBits_of_finite
    {value : Float}
    {negative : Bool}
    {mantissa : Nat}
    {exponent : Int}
    (isFinite : Binary.ofFloat value = .finite negative mantissa exponent) :
    IsCanonical mantissa exponent ∧
      Float.ofBits (UInt64.ofNat (signedBits negative (bitsOf exponent mantissa))) =
        value := by
  obtain ⟨isCanonical, isSame⟩ :=
    eq_signedBits_of_finite value.toBits.toNat_lt isFinite
  refine ⟨isCanonical, ?_⟩
  rw [← isSame, UInt64.ofNat_toNat, Float.ofBits_toBits]

theorem nearestBits_eq_of_roundsTo
    {numerator denominator mantissa : Nat}
    {exponent : Int}
    (isThere : 0 < numerator)
    (isPositive : 0 < denominator)
    (isCanonical : IsCanonical mantissa exponent)
    (roundsTo : RoundsTo (ratio (numerator, denominator)) mantissa exponent) :
    nearestBits numerator denominator = bitsOf exponent mantissa :=
  (areNearestBits_nearestBits isThere isPositive).unique
    (areNearestBits_of_roundsTo isCanonical roundsTo)

/-- A double is the nearest one of every number in its rounding interval. -/
theorem nearestFloat_of_roundsTo
    {value : Float}
    {negative : Bool}
    {numerator denominator mantissa : Nat}
    {exponent : Int}
    (isFinite : Binary.ofFloat value = .finite negative mantissa exponent)
    (isThere : 0 < numerator)
    (isPositive : 0 < denominator)
    (roundsTo : RoundsTo (ratio (numerator, denominator)) mantissa exponent) :
    nearestFloat negative numerator denominator = value := by
  obtain ⟨isCanonical, isValue⟩ := ofBits_of_finite isFinite
  rw [nearestFloat_eq,
    nearestBits_eq_of_roundsTo isThere isPositive isCanonical roundsTo, isValue]

/--
The nearest double of a number does not depend on the fraction
that it is given by.
-/
theorem nearestFloat_congr
    {numerator denominator otherNumerator otherDenominator : Nat}
    (isPositive : 0 < denominator)
    (otherPositive : 0 < otherDenominator)
    (isSame : ratio (numerator, denominator) =
      ratio (otherNumerator, otherDenominator))
    (negative : Bool) :
    nearestFloat negative numerator denominator =
      nearestFloat negative otherNumerator otherDenominator := by
  have isCross : numerator * otherDenominator = otherNumerator * denominator := by
    have isThere : (denominator : ℚ) ≠ 0 := by positivity
    have otherThere : (otherDenominator : ℚ) ≠ 0 := by positivity
    rw [ratio, ratio, div_eq_div_iff isThere otherThere] at isSame
    exact_mod_cast isSame
  rw [nearestFloat_eq, nearestFloat_eq]
  by_cases isZero : numerator = 0
  · have otherZero : otherNumerator = 0 := by
      rw [isZero, Nat.zero_mul] at isCross
      exact (Nat.mul_eq_zero.mp isCross.symm).resolve_right isPositive.ne'
    rw [isZero, otherZero, nearestBits, nearestBits, if_pos rfl, if_pos rfl]
  · have otherThere : otherNumerator ≠ 0 := by
      rintro rfl
      rw [Nat.zero_mul] at isCross
      exact isZero ((Nat.mul_eq_zero.mp isCross).resolve_right otherPositive.ne')
    have areOther :=
      areNearestBits_nearestBits (Nat.pos_of_ne_zero otherThere) otherPositive
    rw [← isSame] at areOther
    rw [(areNearestBits_nearestBits (Nat.pos_of_ne_zero isZero) isPositive).unique
      areOther]

theorem nearestBits_le
    (numerator denominator : Nat) :
    nearestBits numerator denominator ≤ 2047 * powerOfTwo 52 := by
  by_cases isThere : 0 < numerator
  · rw [nearestBits_of_pos isThere]
    exact bitsOf_le _ _
  · rw [nearestBits, if_pos (Nat.eq_zero_of_not_pos isThere)]
    exact Nat.zero_le _

/-- The nearest double has the sign that it is asked for. -/
theorem hasSignBit_nearestFloat
    (negative : Bool)
    (numerator denominator : Nat) :
    hasSignBit (nearestFloat negative numerator denominator) = negative := by
  have isFew := nearestBits_le numerator denominator
  have isBelow := signedBits_lt isFew negative
  rw [nearestFloat_eq]
  generalize nearestBits numerator denominator = size at isFew isBelow
  have isSame : (UInt64.ofNat (signedBits negative size)).toNat =
      signedBits negative size := by
    rw [UInt64.toNat_ofNat']
    exact Nat.mod_eq_of_lt isBelow
  rw [hasSignBit, toBits_ofBits, isSame]
  · simp only [signedBits, powerOfTwo_sixtyThree, powerOfTwo_fiftyTwo] at *
    cases negative <;> simp <;> omega
  · rw [isSame]
    simp only [signedBits, powerOfTwo_sixtyThree, powerOfTwo_fiftyTwo,
      powerOfTwo_eleven] at *
    split <;> omega

/-! Numbers near a double. -/

theorem bitsOf_of_high
    {exponent : Int}
    {mantissa : Nat}
    (isHigh : 972 ≤ exponent)
    (isFull : powerOfTwo 52 ≤ mantissa) :
    bitsOf exponent mantissa = 2047 * powerOfTwo 52 := by
  simp only [bitsOf, powerOfTwo_fiftyTwo] at *
  rw [if_neg (by omega), if_neg (by omega)]

/-- The nearest double is infinite, or it is no farther than half a unit. -/
theorem AreNearestBits.cases
    {number : ℚ}
    {bits : Nat}
    (areNearest : AreNearestBits number bits) :
    bits = 2047 * powerOfTwo 52 ∨
      ∃ mantissa exponent, IsCanonical mantissa exponent ∧
        bits = bitsOf exponent mantissa ∧
        |number / 2 ^ exponent - mantissa| ≤ 1 / 2 := by
  obtain ⟨exponent, mantissa, ⟨notLow, isBelow, isAbove⟩, isNearest, rfl⟩ :=
    areNearest
  have isShort : mantissa ≤ powerOfTwo 52 + powerOfTwo 52 := by
    refine isNearest.le_of_ge ?_
    rw [show exponent + 53 = exponent + (53 : Nat) by rfl, two_zpow_add_eq,
      ← div_lt_iff₀ (two_zpow_pos _)] at isBelow
    rw [powerOfTwo_fiftyTwo]
    norm_num at isBelow ⊢
    exact isBelow.le
  have isFull : exponent = -1074 ∨ powerOfTwo 52 ≤ mantissa := by
    refine isAbove.imp_right fun isAbove => isNearest.le_of_le ?_
    rw [show exponent + 52 = exponent + (52 : Nat) by rfl, two_zpow_add_eq,
      ← le_div_iff₀ (two_zpow_pos _)] at isAbove
    rw [powerOfTwo_fiftyTwo]
    norm_num at isAbove ⊢
    exact isAbove
  rcases Nat.lt_or_ge mantissa (powerOfTwo 52 + powerOfTwo 52) with isLess | isMore
  · by_cases notHigh : exponent ≤ 971
    · refine .inr ⟨mantissa, exponent, ⟨isLess, notLow, notHigh, isFull⟩, rfl,
        isNearest.isNear⟩
    · exact .inl (bitsOf_of_high (by omega) (isFull.resolve_left (by omega)))
  · -- The mantissa has grown to a power of two, and the exponent takes the digit
    -- that is too many.
    obtain rfl := Nat.le_antisymm isShort isMore
    have isCarried := bitsOf_carry (show -1074 < exponent + 1 by omega)
    rw [add_sub_cancel_right] at isCarried
    rw [isCarried]
    by_cases notHigh : exponent + 1 ≤ 971
    · refine .inr ⟨powerOfTwo 52, exponent + 1,
        ⟨by decide, by omega, notHigh, .inr (by decide)⟩, rfl, ?_⟩
      have isHalf : number / 2 ^ (exponent + 1) = number / 2 ^ exponent / 2 := by
        rw [zpow_add_one₀ (by norm_num), div_div]
      have isNear := abs_le.mp isNearest.isNear
      push_cast at isNear
      rw [isHalf, abs_le]
      constructor <;> linarith
    · exact .inl (bitsOf_of_high (by omega) (Nat.le_refl _))

/--
A finite double that is nearest to a number is no farther from it
than half a unit.
-/
theorem near_of_nearestFloat
    {negative isNegative : Bool}
    {numerator denominator mantissa : Nat}
    {exponent : Int}
    (isThere : 0 < numerator)
    (isPositive : 0 < denominator)
    (isFinite : Binary.ofFloat (nearestFloat negative numerator denominator) =
      .finite isNegative mantissa exponent) :
    isNegative = negative ∧
      |ratio (numerator, denominator) / 2 ^ exponent - mantissa| ≤ 1 / 2 := by
  rw [nearestFloat_eq] at isFinite
  rcases (areNearestBits_nearestBits isThere isPositive).cases with
    isInfinite | ⟨found, foundExponent, isCanonical, isFound, isNear⟩
  · have isContent := ofBits_infinite negative
    rw [isInfinite,
      ofFloat_ofBits (signedBits_lt (Nat.le_refl _) negative)
        (by rw [isContent]; simp), isContent] at isFinite
    cases isFinite
  · have isContent := ofBits_signedBits isCanonical negative
    rw [isFound, ofFloat_ofBits (signedBits_lt (bitsOf_le _ _) negative)
      (by rw [isContent]; simp), isContent] at isFinite
    obtain ⟨rfl, rfl, rfl⟩ := Binary.finite.inj isFinite
    exact ⟨rfl, isNear⟩

end DesignTokens.Number
