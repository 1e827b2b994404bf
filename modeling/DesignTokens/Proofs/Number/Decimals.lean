import DesignTokens.Proofs.Number.NearestDoubles

namespace DesignTokens.Number

/-!
# Decimals near doubles

A fraction in a number of significant digits is off by half a unit of the last
one.  So a decimal of few digits comes back from the double nearest to it, and
the shortest decimal of a double lies in its rounding interval: seventeen digits
are always enough.
-/

theorem ten_zpow_pos
    (power : Int) :
    (0 : ℚ) < 10 ^ power :=
  zpow_pos (by norm_num) power

theorem ten_zpow_le_iff
    {left right : Int} :
    (10 : ℚ) ^ left ≤ 10 ^ right ↔ left ≤ right :=
  zpow_le_zpow_iff_right₀ (by norm_num)

theorem ten_zpow_lt_iff
    {left right : Int} :
    (10 : ℚ) ^ left < 10 ^ right ↔ left < right :=
  zpow_lt_zpow_iff_right₀ (by norm_num)

theorem ten_zpow_add
    (left right : Int) :
    (10 : ℚ) ^ (left + right) = 10 ^ left * 10 ^ right :=
  zpow_add₀ (by norm_num) left right

theorem ten_zpow_mul
    {left right sum : Int}
    (isSum : left + right = sum) :
    (10 : ℚ) ^ left * 10 ^ right = 10 ^ sum := by
  rw [← ten_zpow_add, isSum]

theorem ten_zpow_ofNat
    (power : Nat) :
    (10 : ℚ) ^ (Int.ofNat power) = ((10 ^ power : Nat) : ℚ) := by
  simp

theorem ten_pow_eq_zpow
    (power : Nat) :
    (10 : ℚ) ^ power = 10 ^ (power : Int) :=
  (zpow_natCast 10 power).symm

namespace Decimal

/-- The number that a decimal stands for. -/
def number (value : Decimal) : ℚ :=
  value.coefficient * 10 ^ value.exponent

theorem number_trimZeros
    (fuel : Nat)
    (value : Decimal) :
    (trimZeros fuel value).number = value.number := by
  induction fuel generalizing value with
  | zero => rfl
  | succ fuel inductionHypothesis =>
      rw [trimZeros]
      split
      · rename_i hasZero
        have isSplit :
            (value.coefficient : ℚ) = (value.coefficient / 10 : Nat) * 10 := by
          exact_mod_cast (Nat.div_mul_cancel
            (Nat.dvd_of_mod_eq_zero hasZero.2)).symm
        rw [inductionHypothesis, number, number, isSplit,
          zpow_add_one₀ (by norm_num)]
        ring
      · rfl

/-- Trailing zeros do not change the number. -/
theorem number_trimmed
    (value : Decimal) :
    value.trimmed.number = value.number :=
  number_trimZeros _ value

theorem width_pos
    (value : Nat) :
    0 < width value :=
  Nat.length_toDigits_pos

/-- A number has as many digits as the next power of ten has zeros. -/
theorem width_bounds
    {value : Nat}
    (isPositive : 0 < value) :
    10 ^ (width value - 1) ≤ value ∧ value < 10 ^ width value := by
  constructor
  · by_cases isDigit : width value = 1
    · rw [isDigit]
      exact isPositive
    · by_contra isBelow
      have isThere := width_pos value
      have isShort :=
        (Nat.length_toDigits_le_iff (by decide) (by omega)).mpr
          (Nat.lt_of_not_le isBelow)
      unfold width digits at *
      omega
  · exact (Nat.length_toDigits_le_iff (by decide) (width_pos value)).mp
      (Nat.le_refl _)

/-- The leading exponent tells the size of a decimal. -/
theorem leading_bounds
    {value : Decimal}
    (isPositive : 0 < value.coefficient) :
    (10 : ℚ) ^ value.leading ≤ value.number ∧
      value.number < 10 ^ (value.leading + 1) := by
  obtain ⟨isLow, isHigh⟩ := width_bounds isPositive
  have isThere := width_pos value.coefficient
  have isPower := ten_zpow_pos value.exponent
  rw [number]
  constructor
  · have isSplit : value.leading =
        Int.ofNat (width value.coefficient - 1) + value.exponent := by
      rw [leading]
      simp only [Int.ofNat_eq_natCast]
      omega
    rw [isSplit, ten_zpow_add, ten_zpow_ofNat]
    gcongr
  · have isSplit : value.leading + 1 =
        Int.ofNat (width value.coefficient) + value.exponent := by
      rw [leading]
      omega
    rw [isSplit, ten_zpow_add, ten_zpow_ofNat]
    gcongr

theorem number_pos_iff
    {value : Decimal} :
    0 < value.number ↔ 0 < value.coefficient := by
  rw [number, mul_pos_iff_of_pos_right (ten_zpow_pos _), Nat.cast_pos]

end Decimal

/-! Significant digits. -/

section Fraction

variable {numerator denominator : Nat}

/-- The magnitude of a fraction below one is told by the digits of its inverse. -/
theorem magnitude_of_lt
    (isThere : 0 < numerator)
    (isBelow : numerator < denominator) :
    magnitude numerator denominator =
      1 - Int.ofNat (Decimal.width (denominator / numerator)) := by
  have isHigh := (Decimal.width_bounds (Nat.div_pos isBelow.le isThere)).2
  rw [Nat.div_lt_iff_lt_mul isThere] at isHigh
  have notLess : ¬ (timesPowerOfTen numerator denominator
      (- -Int.ofNat (Decimal.width (denominator / numerator)))).1 <
        (timesPowerOfTen numerator denominator
          (- -Int.ofNat (Decimal.width (denominator / numerator)))).2 := by
    rw [neg_neg, timesPowerOfTen, powerOfTen, Nat.mul_comm]
    exact Nat.not_lt_of_lt isHigh
  rw [magnitude, if_neg (Nat.not_le_of_lt isBelow)]
  simp only
  rw [if_neg notLess]
  omega

/--
The powers of ten around a fraction below one, with the
denominator multiplied out.
-/
theorem magnitude_bounds_of_lt
    (isThere : 0 < numerator)
    (isBelow : numerator < denominator) :
    (10 : ℚ) ^ (magnitude numerator denominator - 1) * denominator ≤ numerator ∧
      (numerator : ℚ) ≤ 10 ^ magnitude numerator denominator * denominator := by
  obtain ⟨isLow, isHigh⟩ := Decimal.width_bounds (Nat.div_pos isBelow.le isThere)
  have hasWidth := Decimal.width_pos (denominator / numerator)
  rw [magnitude_of_lt isThere isBelow]
  rw [Nat.div_lt_iff_lt_mul isThere] at isHigh
  rw [Nat.le_div_iff_mul_le isThere] at isLow
  generalize Decimal.width (denominator / numerator) = width
    at isLow isHigh hasWidth ⊢
  constructor
  · have isInverse :
        (10 : ℚ) ^ (1 - Int.ofNat width - 1) * 10 ^ Int.ofNat width = 1 := by
      rw [ten_zpow_mul
        (show 1 - Int.ofNat width - 1 + Int.ofNat width = 0 by omega), zpow_zero]
    have isBound : (denominator : ℚ) ≤ 10 ^ Int.ofNat width * numerator := by
      rw [ten_zpow_ofNat]
      exact_mod_cast isHigh.le
    calc (10 : ℚ) ^ (1 - Int.ofNat width - 1) * denominator
        ≤ 10 ^ (1 - Int.ofNat width - 1) * (10 ^ Int.ofNat width * numerator) :=
          mul_le_mul_of_nonneg_left isBound (ten_zpow_pos _).le
      _ = numerator := by rw [← mul_assoc, isInverse, one_mul]
  · have isNone : 1 - Int.ofNat width + Int.ofNat (width - 1) = 0 := by
      simp only [Int.ofNat_eq_natCast]
      omega
    have isInverse :
        (10 : ℚ) ^ (1 - Int.ofNat width) * 10 ^ Int.ofNat (width - 1) = 1 := by
      rw [ten_zpow_mul isNone, zpow_zero]
    have isBound : 10 ^ Int.ofNat (width - 1) * (numerator : ℚ) ≤ denominator := by
      rw [ten_zpow_ofNat]
      exact_mod_cast isLow
    calc (numerator : ℚ)
        = 10 ^ (1 - Int.ofNat width) *
          (10 ^ Int.ofNat (width - 1) * numerator) := by
          rw [← mul_assoc, isInverse, one_mul]
      _ ≤ 10 ^ (1 - Int.ofNat width) * denominator :=
          mul_le_mul_of_nonneg_left isBound (ten_zpow_pos _).le

/-- The magnitude of a fraction lies between the powers of ten around it. -/
theorem magnitude_bounds
    (isThere : 0 < numerator)
    (isPositive : 0 < denominator) :
    (10 : ℚ) ^ (magnitude numerator denominator - 1) ≤
      ratio (numerator, denominator) ∧
      ratio (numerator, denominator) ≤ 10 ^ magnitude numerator denominator := by
  have denominatorPositive : (0 : ℚ) < denominator := by exact_mod_cast isPositive
  rw [ratio, le_div_iff₀ denominatorPositive, div_le_iff₀ denominatorPositive]
  rcases Nat.lt_or_ge numerator denominator with isBelow | isAbove
  · exact magnitude_bounds_of_lt isThere isBelow
  · obtain ⟨isLow, isHigh⟩ := Decimal.width_bounds (Nat.div_pos isAbove isPositive)
    have hasWidth := Decimal.width_pos (numerator / denominator)
    rw [magnitude, if_pos isAbove]
    rw [Nat.div_lt_iff_lt_mul isPositive] at isHigh
    rw [Nat.le_div_iff_mul_le isPositive] at isLow
    generalize Decimal.width (numerator / denominator) = width
      at isLow isHigh hasWidth ⊢
    have isNext : Int.ofNat width - 1 = Int.ofNat (width - 1) := by
      simp only [Int.ofNat_eq_natCast]
      omega
    rw [isNext, ten_zpow_ofNat, ten_zpow_ofNat]
    exact ⟨by exact_mod_cast isLow, by exact_mod_cast isHigh.le⟩

/--
A number rounded to significant digits, as the whole number of units
of the last one.
-/
theorem significant_of_pos
    (isThere : 0 < numerator)
    (count : Nat) :
    significant numerator denominator count =
      ⟨roundQuotient
          (timesPowerOfTen numerator denominator
            (Int.ofNat count - magnitude numerator denominator)).1
          (timesPowerOfTen numerator denominator
            (Int.ofNat count - magnitude numerator denominator)).2,
        -(Int.ofNat count - magnitude numerator denominator)⟩ := by
  rw [significant, if_neg isThere.ne']

/-- The coefficient of the significant digits is the nearest whole number. -/
theorem isNearest_significant
    (isThere : 0 < numerator)
    (isPositive : 0 < denominator)
    (count : Nat) :
    IsNearest
      (ratio (numerator, denominator) * 10 ^
        (Int.ofNat count - magnitude numerator denominator))
      (significant numerator denominator count).coefficient := by
  rw [significant_of_pos isThere, ← ratio_timesPowerOfTen]
  exact isNearest_roundQuotient (timesPowerOfTen_pos isPositive _ _) _

theorem lifted_le
    (isThere : 0 < numerator)
    (isPositive : 0 < denominator)
    (count : Nat) :
    ratio (numerator, denominator) * 10 ^
      (Int.ofNat count - magnitude numerator denominator) ≤
      ((10 ^ count : Nat) : ℚ) := by
  have isBelow := (magnitude_bounds isThere isPositive).2
  calc ratio (numerator, denominator) * 10 ^
    (Int.ofNat count - magnitude numerator denominator)
      ≤ 10 ^ magnitude numerator denominator *
          10 ^ (Int.ofNat count - magnitude numerator denominator) :=
        mul_le_mul_of_nonneg_right isBelow (ten_zpow_pos _).le
    _ = ((10 ^ count : Nat) : ℚ) := by
        rw [← ten_zpow_add, ← ten_zpow_ofNat]
        congr 1
        omega

/--
The coefficient has as many digits as asked for, or it has been rounded up
to a power of ten.
-/
theorem coefficient_significant_le
    (isThere : 0 < numerator)
    (isPositive : 0 < denominator)
    (count : Nat) :
    (significant numerator denominator count).coefficient ≤ 10 ^ count :=
  (isNearest_significant isThere isPositive count).le_of_ge
    (lifted_le isThere isPositive count)

/-- Rounding to significant digits does not make a number ten times as large. -/
theorem number_significant_le
    (isThere : 0 < numerator)
    (isPositive : 0 < denominator)
    (count : Nat) :
    (significant numerator denominator count).number ≤
      10 * ratio (numerator, denominator) := by
  have isFew : ((significant numerator denominator count).coefficient : ℚ) ≤
      10 ^ Int.ofNat count := by
    rw [ten_zpow_ofNat]
    exact_mod_cast coefficient_significant_le isThere isPositive count
  have isExponent : (significant numerator denominator count).exponent =
      magnitude numerator denominator - Int.ofNat count := by
    rw [significant_of_pos isThere, neg_sub]
  have isAbove := (magnitude_bounds isThere isPositive).1
  calc (significant numerator denominator count).number
      ≤ 10 ^ Int.ofNat count * 10 ^
        (significant numerator denominator count).exponent :=
        mul_le_mul_of_nonneg_right isFew (ten_zpow_pos _).le
    _ = 10 * 10 ^ (magnitude numerator denominator - 1) := by
        rw [← ten_zpow_add, isExponent, ← zpow_one_add₀ (by norm_num)]
        congr 1
        omega
    _ ≤ 10 * ratio (numerator, denominator) :=
        mul_le_mul_of_nonneg_left isAbove (by norm_num)

/--
A decimal near a number has no digit behind those that are
significant for the number.
-/
theorem le_exponent_of_near
    {value : Decimal}
    {count : Nat}
    (isThere : 0 < numerator)
    (isPositive : 0 < denominator)
    (isShort : value.coefficient < 10 ^ count)
    (isNear : |value.number - ratio (numerator, denominator)| * 10 ^ (count + 1) <
      ratio (numerator, denominator)) :
    magnitude numerator denominator - Int.ofNat count ≤ value.exponent := by
  obtain ⟨isAbove, isBelow⟩ := magnitude_bounds isThere isPositive
  generalize magnitude numerator denominator = size at isAbove isBelow ⊢
  by_contra isLow
  -- Otherwise the decimal lies below the power of ten, and by as much as its last
  -- digit at least.
  have isUnit : (10 : ℚ) ^ value.exponent ≤ 10 ^ (size - Int.ofNat count - 1) :=
    ten_zpow_le_iff.mpr (by omega)
  have isFew : (value.coefficient : ℚ) ≤ 10 ^ count - 1 := by
    rw [le_sub_iff_add_le]
    exact_mod_cast isShort
  have isTop : (10 : ℚ) ^ count * 10 ^ (size - Int.ofNat count - 1) =
      10 ^ (size - 1) := by
    rw [ten_pow_eq_zpow]
    exact ten_zpow_mul (by simp only [Int.ofNat_eq_natCast]; omega)
  have isFar : 10 ^ (size - Int.ofNat count - 1) ≤
      ratio (numerator, denominator) - value.number := by
    have isBound :
        value.number ≤ (10 ^ count - 1) * 10 ^ (size - Int.ofNat count - 1) :=
      mul_le_mul isFew isUnit (ten_zpow_pos _).le ((Nat.cast_nonneg _).trans isFew)
    linarith
  have isWhole : (10 : ℚ) ^ (size - Int.ofNat count - 1) * 10 ^ (count + 1) =
      10 ^ size := by
    rw [ten_pow_eq_zpow]
    exact ten_zpow_mul (by simp only [Int.ofNat_eq_natCast]; omega)
  have isLarge : 10 ^ size ≤
      |value.number - ratio (numerator, denominator)| * 10 ^ (count + 1) := by
    rw [← isWhole, abs_sub_comm]
    exact mul_le_mul_of_nonneg_right (isFar.trans (le_abs_self _)) (by positivity)
  linarith

/--
A decimal much nearer to a number than its last digit is worth is no half
unit away from it.
-/
theorem lifted_lt_half_of_near
    {value : Decimal}
    {count : Nat}
    (isThere : 0 < numerator)
    (isPositive : 0 < denominator)
    (isNear : |value.number - ratio (numerator, denominator)| * 10 ^ (count + 1) <
      ratio (numerator, denominator)) :
    |value.number - ratio (numerator, denominator)| *
        10 ^ (Int.ofNat count - magnitude numerator denominator) <
      1 / 2 := by
  have isBelow := (magnitude_bounds isThere isPositive).2
  generalize magnitude numerator denominator = size at *
  generalize hasPower : Int.ofNat count - size = power at *
  have isShare : (10 : ℚ) ^ size * 10 ^ power = 10 ^ count := by
    rw [ten_pow_eq_zpow]
    exact ten_zpow_mul (by simp only [Int.ofNat_eq_natCast] at hasPower; omega)
  have isLess :
      |value.number - ratio (numerator, denominator)| * 10 ^ power *
          10 ^ (count + 1) < 10 ^ count :=
    calc |value.number - ratio (numerator, denominator)| * 10 ^ power *
          10 ^ (count + 1)
        = |value.number - ratio (numerator, denominator)| * 10 ^ (count + 1) *
            10 ^ power := by ring
      _ < 10 ^ size * 10 ^ power :=
          mul_lt_mul_of_pos_right (isNear.trans_le isBelow) (ten_zpow_pos _)
      _ = 10 ^ count := isShare
  rw [pow_succ, ← mul_assoc, mul_right_comm] at isLess
  have isTenth :=
    lt_of_mul_lt_mul_right (isLess.trans_eq (one_mul _).symm) (by positivity)
  linarith

/--
A decimal that has no digit behind a place is a whole number of
units of the place.
-/
theorem natCast_lifted
    {value : Decimal}
    {power : Int}
    (isAbove : 0 ≤ value.exponent + power) :
    ((value.coefficient * 10 ^ (value.exponent + power).toNat : Nat) : ℚ) =
      value.number * 10 ^ power := by
  have isLifted :
      Int.ofNat (value.exponent + power).toNat = value.exponent + power := by
    simp only [Int.ofNat_eq_natCast]
    omega
  rw [Nat.cast_mul, ← ten_zpow_ofNat, isLifted, ten_zpow_add, Decimal.number]
  ring

/--
A decimal of few digits is found again as the significant digits of every number
that is much nearer to it than the last digit is worth.
-/
theorem number_significant_of_near
    {value : Decimal}
    {count : Nat}
    (isThere : 0 < numerator)
    (isPositive : 0 < denominator)
    (isShort : value.coefficient < 10 ^ count)
    (isNear : |value.number - ratio (numerator, denominator)| * 10 ^ (count + 1) <
      ratio (numerator, denominator)) :
    (significant numerator denominator count).number = value.number := by
  have isHigh := le_exponent_of_near isThere isPositive isShort isNear
  have isClose := lifted_lt_half_of_near isThere isPositive isNear
  have isNearest := isNearest_significant isThere isPositive count
  have isExponent : (significant numerator denominator count).exponent =
      -(Int.ofNat count - magnitude numerator denominator) := by
    rw [significant_of_pos isThere]
  generalize magnitude numerator denominator = size at *
  generalize hasPower : Int.ofNat count - size = power at *
  have isAbove : 0 ≤ value.exponent + power := by omega
  have isWhole := natCast_lifted isAbove
  have isFound : (significant numerator denominator count).coefficient =
      value.coefficient * 10 ^ (value.exponent + power).toNat := by
    refine isNearest.unique (isNearest_of_lt ?_)
    rw [isWhole, ← sub_mul, abs_mul, abs_of_pos (ten_zpow_pos power), abs_sub_comm]
    exact isClose
  have isInverse : (10 : ℚ) ^ power * 10 ^ (-power) = 1 := by
    rw [ten_zpow_mul (add_neg_cancel power), zpow_zero]
  rw [Decimal.number, isFound, isExponent, isWhole, mul_assoc, isInverse, mul_one]

/--
A decimal of few digits that has one behind a place is, in units of the place,
no more than the power of ten of the other digits.
-/
theorem lifted_le_power
    {value : Decimal}
    {count : Nat}
    {power : Int}
    (someDigit : 0 < count)
    (isShort : value.coefficient < 10 ^ count)
    (hasFraction : value.exponent + power < 0) :
    value.number * 10 ^ power ≤ ((10 ^ (count - 1) : Nat) : ℚ) := by
  have isFew : (value.coefficient : ℚ) ≤ 10 ^ Int.ofNat count := by
    rw [ten_zpow_ofNat]
    exact_mod_cast isShort.le
  calc value.number * 10 ^ power
      = value.coefficient * 10 ^ (value.exponent + power) := by
        rw [Decimal.number, mul_assoc, ← ten_zpow_add]
    _ ≤ 10 ^ Int.ofNat count * 10 ^ (-1 : Int) :=
        mul_le_mul isFew (ten_zpow_le_iff.mpr (by omega)) (ten_zpow_pos _).le
          (ten_zpow_pos _).le
    _ = ((10 ^ (count - 1) : Nat) : ℚ) := by
        rw [← ten_zpow_ofNat]
        refine ten_zpow_mul ?_
        simp only [Int.ofNat_eq_natCast]
        omega

/--
No decimal of as many digits is nearer to a number than its significant digits.
-/
theorem dist_significant_le
    {other : Decimal}
    {count : Nat}
    (isThere : 0 < numerator)
    (isPositive : 0 < denominator)
    (someDigit : 0 < count)
    (isShort : other.coefficient < 10 ^ count) :
    |ratio (numerator, denominator) -
      (significant numerator denominator count).number| ≤
      |ratio (numerator, denominator) - other.number| := by
  have isNearest := isNearest_significant isThere isPositive count
  have isAbove := (magnitude_bounds isThere isPositive).1
  have isExponent : (significant numerator denominator count).exponent =
      -(Int.ofNat count - magnitude numerator denominator) := by
    rw [significant_of_pos isThere]
  generalize significant numerator denominator count = found at *
  generalize magnitude numerator denominator = size at *
  generalize ratio (numerator, denominator) = number at *
  generalize hasPower : Int.ofNat count - size = power at *
  -- Both distances are compared in units of the last significant digit.
  have isLifted : found.number * 10 ^ power = found.coefficient := by
    rw [Decimal.number, isExponent, mul_assoc, ten_zpow_mul (neg_add_cancel power),
      zpow_zero, mul_one]
  have inUnits (left : ℚ) :
      |number - left| * 10 ^ power = |number * 10 ^ power - left * 10 ^ power| := by
    rw [← sub_mul, abs_mul, abs_of_pos (ten_zpow_pos power)]
  refine le_of_mul_le_mul_right ?_ (ten_zpow_pos power)
  rw [inUnits, inUnits, isLifted]
  by_cases hasUnits : 0 ≤ other.exponent + power
  · rw [← natCast_lifted hasUnits]
    exact isNearest.dist_le _
  · -- With a digit behind the last one it lies below the power of ten, which is no
    -- nearer.
    have isPower :
        ((10 ^ (count - 1) : Nat) : ℚ) = 10 ^ (size - 1) * 10 ^ power := by
      rw [← ten_zpow_ofNat]
      refine (ten_zpow_mul ?_).symm
      simp only [Int.ofNat_eq_natCast] at *
      omega
    have isBelow := lifted_le_power someDigit isShort (Int.not_le.mp hasUnits)
    have isReached : ((10 ^ (count - 1) : Nat) : ℚ) ≤ number * 10 ^ power := by
      rw [isPower]
      exact mul_le_mul_of_nonneg_right isAbove (ten_zpow_pos _).le
    refine (isNearest.dist_le (10 ^ (count - 1))).trans ?_
    rw [abs_of_nonneg (by linarith), abs_of_nonneg (by linarith)]
    linarith

end Fraction

end DesignTokens.Number
