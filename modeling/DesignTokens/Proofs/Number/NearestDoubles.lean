import DesignTokens.Number.Shortest
import Mathlib.Algebra.Order.Field.Power
import Mathlib.Algebra.Order.Field.Rat
import Mathlib.Algebra.Order.Group.Abs
import Mathlib.Data.Nat.Cast.Order.Field
import Mathlib.Tactic.FieldSimp
import Mathlib.Tactic.Linarith
import Mathlib.Tactic.NormNum
import Mathlib.Tactic.Positivity
import Mathlib.Tactic.Ring

namespace DesignTokens.Number

/-!
# Nearest doubles

What is computed on numerators and denominators only depends on the rational
number behind them.  A positive number lies on the grid of a target exponent,
where it has at most 53 binary digits, and its nearest double is its nearest
number on that grid.  So the nearest double only depends on the number, not on
how it is given, and every number in the rounding interval of a double has that
double for its nearest one.
-/

/-! Fractions. -/

/-- The number that a numerator and a denominator stand for. -/
def ratio (fraction : Nat × Nat) : ℚ :=
  fraction.1 / fraction.2

theorem ratio_scaled
    (mantissa : Nat)
    (exponent : Int) :
    ratio (scaled mantissa exponent) = mantissa * 2 ^ exponent := by
  cases exponent with
  | ofNat up => simp [ratio, scaled, powerOfTwo]
  | negSucc down => simp [ratio, scaled, powerOfTwo, zpow_negSucc, div_eq_mul_inv]

theorem scaled_pos
    (mantissa : Nat)
    (exponent : Int) :
    0 < (scaled mantissa exponent).2 := by
  cases exponent <;> simp [scaled, powerOfTwo]

theorem ratio_timesPowerOfTen
    (numerator denominator : Nat)
    (power : Int) :
    ratio (timesPowerOfTen numerator denominator power) =
      ratio (numerator, denominator) * 10 ^ power := by
  cases power with
  | ofNat up =>
      simp [ratio, timesPowerOfTen, powerOfTen]
      ring
  | negSucc down =>
      simp [ratio, timesPowerOfTen, powerOfTen, zpow_negSucc]
      field_simp

theorem timesPowerOfTen_pos
    {denominator : Nat}
    (isPositive : 0 < denominator)
    (numerator : Nat)
    (power : Int) :
    0 < (timesPowerOfTen numerator denominator power).2 := by
  cases power <;> simp [timesPowerOfTen, powerOfTen, isPositive]

/-! Rounding to whole numbers. -/

/--
The whole number nearest to a number, the even one of two that are equally near.
-/
structure IsNearest (number : ℚ) (whole : Nat) : Prop where
  isNear : |number - whole| ≤ 1 / 2
  isEven : |number - whole| = 1 / 2 → Even whole

/-- A number has one nearest whole number. -/
theorem IsNearest.unique
    {number : ℚ}
    {left right : Nat}
    (isLeft : IsNearest number left)
    (isRight : IsNearest number right) :
    left = right := by
  -- Of two different ones the smaller is a half below and the larger a half above,
  -- and both are even.
  wlog isOrdered : left ≤ right generalizing left right
  · exact (this isRight isLeft (Nat.le_of_not_le isOrdered)).symm
  by_contra differ
  have isNext : (left : ℚ) + 1 ≤ right := by
    exact_mod_cast Nat.lt_of_le_of_ne isOrdered differ
  have leftNear := abs_le.mp isLeft.isNear
  have rightNear := abs_le.mp isRight.isNear
  have isHalf : number - left = 1 / 2 := by linarith
  have isHalfBelow : number - right = -(1 / 2) := by linarith
  have isStep : right = left + 1 := by
    have isStep : (right : ℚ) = left + 1 := by linarith
    exact_mod_cast isStep
  have leftEven : Even left :=
    isLeft.isEven (by rw [isHalf, abs_of_pos (by norm_num)])
  have rightEven : Even right :=
    isRight.isEven (by rw [isHalfBelow, abs_neg, abs_of_pos (by norm_num)])
  rw [isStep] at rightEven
  exact Nat.not_even_iff_odd.mpr leftEven.add_one rightEven

/-- A whole number that is nearer than a half is nearest. -/
theorem isNearest_of_lt
    {number : ℚ}
    {whole : Nat}
    (isNear : |number - whole| < 1 / 2) :
    IsNearest number whole :=
  ⟨isNear.le, fun isHalf => (isNear.ne isHalf).elim⟩

section Quotients

variable {denominator : Nat} (isPositive : 0 < denominator) (numerator : Nat)
include isPositive

/-- A quotient is a whole number and a rest. -/
theorem ratio_split :
    ratio (numerator, denominator) =
      (numerator / denominator : Nat) +
        ratio (numerator % denominator, denominator) := by
  have isThere : (denominator : ℚ) ≠ 0 := by positivity
  have isSum : (numerator : ℚ) = denominator * (numerator / denominator : Nat) +
      (numerator % denominator : Nat) := by
    exact_mod_cast (Nat.div_add_mod numerator denominator).symm
  rw [ratio, ratio]
  field_simp
  exact isSum

theorem ratio_mod_lt_one :
    ratio (numerator % denominator, denominator) < 1 := by
  rw [ratio, div_lt_one (by positivity)]
  exact_mod_cast Nat.mod_lt numerator isPositive

theorem ratio_lt_half_iff :
    ratio (numerator, denominator) < 1 / 2 ↔ 2 * numerator < denominator := by
  have isPositiveRatio : (0 : ℚ) < denominator := by positivity
  rw [ratio, div_lt_div_iff₀ isPositiveRatio (by norm_num)]
  norm_cast
  omega

theorem half_lt_ratio_iff :
    1 / 2 < ratio (numerator, denominator) ↔ denominator < 2 * numerator := by
  have isPositiveRatio : (0 : ℚ) < denominator := by positivity
  rw [ratio, div_lt_div_iff₀ (by norm_num) isPositiveRatio]
  norm_cast
  omega

theorem isNearest_roundQuotient :
    IsNearest (ratio (numerator, denominator))
      (roundQuotient numerator denominator) := by
  have isRest := ratio_mod_lt_one isPositive numerator
  have notNegative : 0 ≤ ratio (numerator % denominator, denominator) := by
    rw [ratio]
    positivity
  have isSmall := ratio_lt_half_iff isPositive (numerator % denominator)
  have isLarge := half_lt_ratio_iff isPositive (numerator % denominator)
  rw [ratio_split isPositive]
  unfold roundQuotient
  simp only
  generalize ratio (numerator % denominator, denominator) = rest at *
  generalize numerator / denominator = quotient
  split
  · rename_i isBelow
    refine isNearest_of_lt ?_
    rw [add_sub_cancel_left, abs_of_nonneg notNegative]
    exact isSmall.mpr isBelow
  · rename_i notBelow
    split
    · rename_i isAbove
      have isMore := isLarge.mpr isAbove
      refine isNearest_of_lt ?_
      rw [abs_lt]
      push_cast
      constructor <;> linarith
    · rename_i notAbove
      have isExact : rest = 1 / 2 :=
        le_antisymm (not_lt.mp (mt isLarge.mp notAbove))
          (not_lt.mp (mt isSmall.mp notBelow))
      split
      · rename_i isEven
        refine ⟨?_, fun _ => Nat.even_iff.mpr isEven⟩
        rw [add_sub_cancel_left, isExact, abs_of_pos (by norm_num)]
      · rename_i isOdd
        refine ⟨?_, fun _ =>
          (Nat.not_even_iff_odd.mp (mt Nat.even_iff.mp isOdd)).add_one⟩
        rw [isExact, abs_le]
        push_cast
        constructor <;> linarith

end Quotients

/-- Rounding does not pass a whole number. -/
theorem IsNearest.le_of_le
    {number : ℚ}
    {bound whole : Nat}
    (isNearest : IsNearest number whole)
    (isAbove : (bound : ℚ) ≤ number) :
    bound ≤ whole := by
  have isNear := abs_le.mp isNearest.isNear
  by_contra isBelow
  have isNext : (whole : ℚ) + 1 ≤ bound := by
    exact_mod_cast Nat.lt_of_not_le isBelow
  linarith

theorem IsNearest.le_of_ge
    {number : ℚ}
    {bound whole : Nat}
    (isNearest : IsNearest number whole)
    (isBelow : number ≤ bound) :
    whole ≤ bound := by
  have isNear := abs_le.mp isNearest.isNear
  by_contra isAbove
  have isNext : (bound : ℚ) + 1 ≤ whole := by
    exact_mod_cast Nat.lt_of_not_le isAbove
  linarith

/-- No whole number is nearer than the nearest one. -/
theorem IsNearest.dist_le
    {number : ℚ}
    {whole : Nat}
    (isNearest : IsNearest number whole)
    (other : Nat) :
    |number - whole| ≤ |number - other| := by
  by_cases isSame : whole = other
  · rw [isSame]
  · have isApart : (1 : ℚ) ≤ |(whole : ℚ) - other| := by
      have isThere : (1 : ℤ) ≤ |(whole : ℤ) - other| :=
        Int.one_le_abs (sub_ne_zero.mpr (by exact_mod_cast isSame))
      exact_mod_cast isThere
    have isNear := isNearest.isNear
    have isBetween := abs_sub_le (whole : ℚ) number other
    rw [abs_sub_comm (whole : ℚ) number] at isBetween
    linarith

/-! Grids of doubles. -/

/-- The exponent of the grid that a positive number is rounded on. -/
structure IsTarget (number : ℚ) (exponent : Int) : Prop where
  notLow : -1074 ≤ exponent
  isBelow : number < 2 ^ (exponent + 53)
  isAbove : exponent = -1074 ∨ 2 ^ (exponent + 52) ≤ number

theorem two_zpow_lt_iff
    {left right : Int} :
    (2 : ℚ) ^ left < 2 ^ right ↔ left < right :=
  zpow_lt_zpow_iff_right₀ (by norm_num)

theorem two_zpow_le_iff
    {left right : Int} :
    (2 : ℚ) ^ left ≤ 2 ^ right ↔ left ≤ right :=
  zpow_le_zpow_iff_right₀ (by norm_num)

theorem two_zpow_pos
    (exponent : Int) :
    (0 : ℚ) < 2 ^ exponent :=
  zpow_pos (by norm_num) exponent

theorem two_zpow_add_natCast
    (exponent : Int)
    (count : Nat) :
    (2 : ℚ) ^ (exponent + count) = 2 ^ exponent * 2 ^ count := by
  rw [zpow_add₀ (by norm_num), zpow_natCast]

/-- A number has one target exponent. -/
theorem IsTarget.unique
    {number : ℚ}
    {left right : Int}
    (isLeft : IsTarget number left)
    (isRight : IsTarget number right) :
    left = right := by
  wlog isOrdered : left ≤ right generalizing left right
  · exact (this isRight isLeft (by omega)).symm
  rcases isRight.isAbove with isLowest | isAbove
  · have notLow := isLeft.notLow
    omega
  · have isLess := two_zpow_lt_iff.mp (isAbove.trans_lt isLeft.isBelow)
    omega

/-- The bits of the double that a number on the grid of a target exponent is. -/
def bitsOf (exponent : Int) (mantissa : Nat) : Nat :=
  if mantissa < powerOfTwo 52 then mantissa
  else
    let bits := (exponent + 1075).toNat * powerOfTwo 52 + (mantissa - powerOfTwo 52)
    if bits < 2047 * powerOfTwo 52 then bits else 2047 * powerOfTwo 52

/-- The bits of the double that is nearest to a positive number. -/
def AreNearestBits (number : ℚ) (bits : Nat) : Prop :=
  ∃ exponent mantissa, IsTarget number exponent ∧
    IsNearest (number / 2 ^ exponent) mantissa ∧
    bits = bitsOf exponent mantissa

/-- A number has one nearest double. -/
theorem AreNearestBits.unique
    {number : ℚ}
    {left right : Nat}
    (areLeft : AreNearestBits number left)
    (areRight : AreNearestBits number right) :
    left = right := by
  obtain ⟨exponent, mantissa, isTarget, isNearest, rfl⟩ := areLeft
  obtain ⟨other, otherMantissa, otherTarget, otherNearest, rfl⟩ := areRight
  obtain rfl := isTarget.unique otherTarget
  rw [isNearest.unique otherNearest]

/-! Computing the nearest double. -/

/-- A fraction divided by a power of two. -/
def dividedByPowerOfTwo (numerator denominator : Nat) (exponent : Int) :
    Nat × Nat :=
  match exponent with
  | .ofNat up => (numerator, denominator * powerOfTwo up)
  | .negSucc down => (numerator * powerOfTwo (down + 1), denominator)

theorem ratio_dividedByPowerOfTwo
    (numerator denominator : Nat)
    (exponent : Int) :
    ratio (dividedByPowerOfTwo numerator denominator exponent) =
      ratio (numerator, denominator) / 2 ^ exponent := by
  cases exponent with
  | ofNat up =>
      simp [ratio, dividedByPowerOfTwo, powerOfTwo]
      field_simp
  | negSucc down =>
      simp [ratio, dividedByPowerOfTwo, powerOfTwo, zpow_negSucc]
      ring

theorem dividedByPowerOfTwo_pos
    {denominator : Nat}
    (isPositive : 0 < denominator)
    (numerator : Nat)
    (exponent : Int) :
    0 < (dividedByPowerOfTwo numerator denominator exponent).2 := by
  cases exponent <;> simp [dividedByPowerOfTwo, powerOfTwo, isPositive]

/-- The least exponent that the target exponent of a fraction may be. -/
def lowExponent (numerator denominator : Nat) : Int :=
  let guess : Int := Int.ofNat numerator.log2 - Int.ofNat denominator.log2 - 53
  if guess < -1074 then -1074 else guess

/-- The target exponent of a fraction. -/
def targetExponent (numerator denominator : Nat) : Int :=
  let low := lowExponent numerator denominator
  let first := dividedByPowerOfTwo numerator denominator low
  if first.1 / first.2 < powerOfTwo 53 then low else low + 1

theorem nearestBits_of_pos
    {numerator : Nat}
    (isPositive : 0 < numerator)
    (denominator : Nat) :
    nearestBits numerator denominator =
      let exponent := targetExponent numerator denominator
      let fraction := dividedByPowerOfTwo numerator denominator exponent
      bitsOf exponent (roundQuotient fraction.1 fraction.2) := by
  rw [nearestBits, if_neg isPositive.ne']
  rfl

/--
The binary logarithms of numerator and denominator give that of the
fraction up to one.
-/
theorem ratio_bounds
    {numerator denominator : Nat}
    (isThere : 0 < numerator)
    (isPositive : 0 < denominator) :
    (2 : ℚ) ^ (Int.ofNat numerator.log2 - Int.ofNat denominator.log2 - 1) ≤
        ratio (numerator, denominator) ∧
      ratio (numerator, denominator) <
        2 ^ (Int.ofNat numerator.log2 - Int.ofNat denominator.log2 + 1) := by
  have asPower (exponent : Nat) :
      ((2 ^ exponent : Nat) : ℚ) = 2 ^ (Int.ofNat exponent) := by
    simp
  have numeratorLow : (2 : ℚ) ^ (Int.ofNat numerator.log2) ≤ numerator := by
    rw [← asPower]
    exact_mod_cast Nat.log2_self_le isThere.ne'
  have numeratorHigh : (numerator : ℚ) < 2 ^ (Int.ofNat numerator.log2 + 1) := by
    have isBelow := Nat.lt_log2_self (n := numerator)
    rw [show Int.ofNat numerator.log2 + 1 =
      Int.ofNat (numerator.log2 + 1) by rfl, ← asPower]
    exact_mod_cast isBelow
  have denominatorLow : (2 : ℚ) ^ (Int.ofNat denominator.log2) ≤ denominator := by
    rw [← asPower]
    exact_mod_cast Nat.log2_self_le isPositive.ne'
  have denominatorHigh :
      (denominator : ℚ) < 2 ^ (Int.ofNat denominator.log2 + 1) := by
    have isBelow := Nat.lt_log2_self (n := denominator)
    rw [show Int.ofNat denominator.log2 + 1 =
      Int.ofNat (denominator.log2 + 1) by rfl, ← asPower]
    exact_mod_cast isBelow
  have denominatorPositive : (0 : ℚ) < denominator := by
    exact_mod_cast isPositive
  generalize Int.ofNat numerator.log2 = top at *
  generalize Int.ofNat denominator.log2 = bottom at *
  constructor
  · rw [ratio, le_div_iff₀ denominatorPositive]
    calc (2 : ℚ) ^ (top - bottom - 1) * denominator
        ≤ 2 ^ (top - bottom - 1) * 2 ^ (bottom + 1) :=
          mul_le_mul_of_nonneg_left denominatorHigh.le (two_zpow_pos _).le
      _ = 2 ^ top := by
          rw [← zpow_add₀ (by norm_num)]
          congr 1
          omega
      _ ≤ numerator := numeratorLow
  · rw [ratio, div_lt_iff₀ denominatorPositive]
    calc (numerator : ℚ) < 2 ^ (top + 1) := numeratorHigh
      _ = 2 ^ (top - bottom + 1) * 2 ^ bottom := by
          rw [← zpow_add₀ (by norm_num)]
          congr 1
          omega
      _ ≤ 2 ^ (top - bottom + 1) * denominator :=
          mul_le_mul_of_nonneg_left denominatorLow (two_zpow_pos _).le

/--
The quotient of a fraction by a power of two shows whether it has more than
53 binary digits.
-/
theorem quotient_lt_iff
    {denominator : Nat}
    (isPositive : 0 < denominator)
    (numerator : Nat)
    (exponent : Int) :
    (dividedByPowerOfTwo numerator denominator exponent).1 /
        (dividedByPowerOfTwo numerator denominator exponent).2 < powerOfTwo 53 ↔
      ratio (numerator, denominator) < 2 ^ (exponent + 53) := by
  have isThere := dividedByPowerOfTwo_pos isPositive numerator exponent
  have isRatio := ratio_dividedByPowerOfTwo numerator denominator exponent
  generalize dividedByPowerOfTwo numerator denominator exponent =
    fraction at isThere isRatio ⊢
  have isSplit :
      (2 : ℚ) ^ (exponent + 53) = 2 ^ exponent * (powerOfTwo 53 : Nat) := by
    have isPower := two_zpow_add_natCast exponent 53
    push_cast at isPower
    rw [isPower]
    norm_num [powerOfTwo]
  have isThereRatio : (0 : ℚ) < fraction.2 := by
    exact_mod_cast isThere
  rw [Nat.div_lt_iff_lt_mul isThere, isSplit, mul_comm (2 ^ exponent : ℚ),
    ← div_lt_iff₀ (two_zpow_pos _), ← isRatio, ratio, div_lt_iff₀ isThereRatio]
  norm_cast

theorem isTarget_targetExponent
    {numerator denominator : Nat}
    (isThere : 0 < numerator)
    (isPositive : 0 < denominator) :
    IsTarget (ratio (numerator, denominator))
      (targetExponent numerator denominator) := by
  obtain ⟨isAbove, isBelow⟩ := ratio_bounds isThere isPositive
  have hasFew :=
    quotient_lt_iff isPositive numerator (lowExponent numerator denominator)
  unfold targetExponent
  simp only
  have isLow : lowExponent numerator denominator = -1074 ∧
        Int.ofNat numerator.log2 - Int.ofNat denominator.log2 - 53 < -1074 ∨
      lowExponent numerator denominator =
        Int.ofNat numerator.log2 - Int.ofNat denominator.log2 - 53 ∧
          -1074 ≤ lowExponent numerator denominator := by
    unfold lowExponent
    simp only
    omega
  generalize lowExponent numerator denominator = low at hasFew isLow ⊢
  split
  · rename_i isFew
    refine ⟨by omega, hasFew.mp isFew, ?_⟩
    refine isLow.imp And.left fun isGuess =>
      le_trans (two_zpow_le_iff.mpr ?_) isAbove
    omega
  · rename_i isMany
    rw [hasFew, not_lt] at isMany
    refine ⟨by omega, isBelow.trans_le (two_zpow_le_iff.mpr (by omega)), .inr ?_⟩
    rwa [show low + 1 + 52 = low + 53 by omega]

/-- The nearest double is computed from any fraction that stands for the number. -/
theorem areNearestBits_nearestBits
    {numerator denominator : Nat}
    (isThere : 0 < numerator)
    (isPositive : 0 < denominator) :
    AreNearestBits (ratio (numerator, denominator))
      (nearestBits numerator denominator) := by
  refine ⟨_, _, isTarget_targetExponent isThere isPositive, ?_,
    nearestBits_of_pos isThere _⟩
  rw [← ratio_dividedByPowerOfTwo]
  exact isNearest_roundQuotient (dividedByPowerOfTwo_pos isPositive _ _) _

/-! Numbers that round to a double. -/

/-- The exact content of a finite double, as it is read off the bits. -/
structure IsCanonical (mantissa : Nat) (exponent : Int) : Prop where
  isShort : mantissa < 2 ^ 53
  notLow : -1074 ≤ exponent
  notHigh : exponent ≤ 971
  isFull : exponent = -1074 ∨ 2 ^ 52 ≤ mantissa

/--
A number in the rounding interval of a double: no farther from it than half a
unit, or a quarter below a power of two, and the ends only for even mantissas.
-/
structure RoundsTo (number : ℚ) (mantissa : Nat) (exponent : Int) : Prop where
  isNear : |number / 2 ^ exponent - mantissa| ≤ 1 / 2
  isEven : |number / 2 ^ exponent - mantissa| = 1 / 2 → Even mantissa
  isNearBelow : mantissa = 2 ^ 52 → -1074 < exponent →
    (mantissa : ℚ) - 1 / 4 ≤ number / 2 ^ exponent

/-- A number rounds to itself. -/
theorem roundsTo_self
    {number : ℚ}
    {mantissa : Nat}
    {exponent : Int}
    (isContent : number = mantissa * 2 ^ exponent) :
    RoundsTo number mantissa exponent := by
  have isExact : number / 2 ^ exponent = mantissa := by
    rw [isContent, mul_div_cancel_right₀ _ (two_zpow_pos exponent).ne']
  refine ⟨?_, ?_, fun _ _ => ?_⟩
  · rw [isExact, sub_self, abs_zero]
    norm_num
  · rw [isExact, sub_self, abs_zero]
    norm_num
  · rw [isExact]
    linarith

theorem two_zpow_add_eq
    (exponent : Int)
    (count : Nat) :
    (2 : ℚ) ^ (exponent + (count : Int)) = 2 ^ count * 2 ^ exponent := by
  rw [two_zpow_add_natCast, mul_comm]

/--
A mantissa that has outgrown its 53 digits stands for the least one of
the next exponent.
-/
theorem bitsOf_carry
    {exponent : Int}
    (notLow : -1074 < exponent) :
    bitsOf (exponent - 1) (powerOfTwo 52 + powerOfTwo 52) =
      bitsOf exponent (powerOfTwo 52) := by
  have isNext : (exponent + 1075).toNat = (exponent - 1 + 1075).toNat + 1 := by
    omega
  unfold bitsOf
  generalize powerOfTwo 52 = unit
  have notSmall : ¬ unit + unit < unit := by
    omega
  simp only [if_neg notSmall, if_neg (Nat.lt_irrefl unit), isNext,
    Nat.add_sub_cancel, Nat.sub_self, Nat.add_mul, Nat.one_mul, Nat.add_zero]

/--
A number just below a power of two lies on a finer grid, and
rounds to that power.
-/
theorem areNearestBits_of_lt_power
    {number : ℚ}
    {exponent : Int}
    (notLow : -1074 < exponent)
    (isTop : 2 ^ 52 - 1 / 4 ≤ number / 2 ^ exponent)
    (isBelow : number / 2 ^ exponent < 2 ^ 52) :
    AreNearestBits number (bitsOf exponent (2 ^ 52)) := by
  have isFiner : (2 : ℚ) ^ exponent = 2 * 2 ^ (exponent - 1) := by
    rw [← zpow_one_add₀ (by norm_num)]
    congr 1
    omega
  have isDouble : number / 2 ^ (exponent - 1) = 2 * (number / 2 ^ exponent) := by
    have isPositive := two_zpow_pos (exponent - 1)
    rw [isFiner]
    field_simp
  refine ⟨exponent - 1, 2 ^ 53, ⟨by omega, ?_, .inr ?_⟩,
    ⟨?_, fun _ => ⟨2 ^ 52, by norm_num⟩⟩, ?_⟩
  · rw [show exponent - 1 + 53 = exponent + (52 : Nat) by omega, two_zpow_add_eq,
      ← div_lt_iff₀ (two_zpow_pos _)]
    exact isBelow
  · rw [show exponent - 1 + 52 = (exponent - 1) + (52 : Nat) by omega,
      two_zpow_add_eq, ← le_div_iff₀ (two_zpow_pos _), isDouble]
    linarith
  · rw [isDouble, abs_le]
    push_cast
    constructor <;> linarith
  · exact (bitsOf_carry notLow).symm

/--
A number in the rounding interval of a double has that double for
its nearest one.
-/
theorem areNearestBits_of_roundsTo
    {number : ℚ}
    {mantissa : Nat}
    {exponent : Int}
    (isCanonical : IsCanonical mantissa exponent)
    (roundsTo : RoundsTo number mantissa exponent) :
    AreNearestBits number (bitsOf exponent mantissa) := by
  obtain ⟨isShort, notLow, notHigh, isFull⟩ := isCanonical
  obtain ⟨isNear, isEven, isNearBelow⟩ := roundsTo
  have isClose := abs_le.mp isNear
  have isWithin : (mantissa : ℚ) + 1 ≤ 2 ^ 53 := by
    exact_mod_cast isShort
  by_cases isOnGrid : exponent = -1074 ∨ (2 : ℚ) ^ (exponent + (52 : Nat)) ≤ number
  · refine ⟨exponent, mantissa, ⟨notLow, ?_, isOnGrid⟩, ⟨isNear, isEven⟩, rfl⟩
    rw [show exponent + 53 = exponent + (53 : Nat) by rfl, two_zpow_add_eq,
      ← div_lt_iff₀ (two_zpow_pos _)]
    linarith
  · obtain ⟨notLowest, isBelow⟩ := not_or.mp isOnGrid
    rw [two_zpow_add_eq, ← le_div_iff₀ (two_zpow_pos _), not_le] at isBelow
    have isLeast : mantissa = 2 ^ 52 := by
      refine Nat.le_antisymm ?_ (isFull.resolve_left notLowest)
      by_contra isMore
      have isNext : (2 ^ 52 : ℚ) + 1 ≤ mantissa := by
        exact_mod_cast Nat.lt_of_not_le isMore
      linarith
    have isTop := isNearBelow isLeast (by omega)
    rw [isLeast] at isTop ⊢
    push_cast at isTop
    exact areNearestBits_of_lt_power (by omega) isTop isBelow

end DesignTokens.Number
