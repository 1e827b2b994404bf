import DesignTokens.Proofs.Number.Decimals

namespace DesignTokens.Number

/-!
# Shortest digits

The decimal that is written for a double is taken from the rounding interval of
the double, so that it is read back as the same one.  With seventeen digits
there always is such a decimal: they are finer than the doubles are apart.
-/

theorem scaled_one
    (exponent : Int) :
    ((scaled 1 exponent).1 : ℚ) = 2 ^ exponent * (scaled 1 exponent).2 := by
  have isRatio := ratio_scaled 1 exponent
  have isThere : ((scaled 1 exponent).2 : ℚ) ≠ 0 := by
    exact_mod_cast (scaled_pos 1 exponent).ne'
  rw [ratio, Nat.cast_one, one_mul, div_eq_iff isThere] at isRatio
  exact isRatio

namespace RoundingInterval

variable {mantissa numerator denominator : Nat} {exponent : Int}

/-- How many quarters of a unit the interval reaches below the double. -/
def quartersBelow (mantissa : Nat) (exponent : Int) : Nat :=
  if mantissa = powerOfTwo 52 ∧ -1074 < exponent then 1 else 2

/-- A fraction and an end of the interval over their common denominator. -/
theorem exists_common
    (isPositive : 0 < denominator)
    (numerator : Nat)
    (exponent : Int) :
    ∃ common : ℚ, 0 < common ∧
      ((numerator * (4 * (scaled 1 exponent).2) : Nat) : ℚ) =
        4 * (ratio (numerator, denominator) / 2 ^ exponent) * common ∧
      ∀ quarters : Nat,
        ((quarters * (scaled 1 exponent).1 * denominator : Nat) : ℚ) =
        quarters * common := by
  have isUnit := scaled_one exponent
  have unitPositive : (0 : ℚ) < (scaled 1 exponent).2 := by
    exact_mod_cast scaled_pos 1 exponent
  have denominatorPositive : (0 : ℚ) < denominator := by
    exact_mod_cast isPositive
  have powerPositive := two_zpow_pos exponent
  refine ⟨2 ^ exponent * (scaled 1 exponent).2 * denominator, by positivity, ?_,
    fun quarters => ?_⟩
  · rw [ratio]
    push_cast
    field_simp
  · push_cast
    rw [isUnit]
    ring

/-- Membership in the interval, in quarters of a unit. -/
theorem holds_iff
    (isThere : 0 < mantissa)
    (isPositive : 0 < denominator) :
    (ofBinary mantissa exponent).holds numerator denominator = true ↔
      if mantissa % 2 = 0 then
        (4 * mantissa - quartersBelow mantissa exponent : ℚ) ≤
            4 * (ratio (numerator, denominator) / 2 ^ exponent) ∧
          4 * (ratio (numerator, denominator) / 2 ^ exponent) ≤ 4 * mantissa + 2
      else
        (4 * mantissa - quartersBelow mantissa exponent : ℚ) <
            4 * (ratio (numerator, denominator) / 2 ^ exponent) ∧
          4 * (ratio (numerator, denominator) / 2 ^ exponent) <
            4 * mantissa + 2 := by
  obtain ⟨common, commonPositive, isPoint, isEnd⟩ :=
    exists_common isPositive numerator exponent
  have fewQuarters : quartersBelow mantissa exponent ≤ 4 * mantissa := by
    unfold quartersBelow
    split <;> omega
  have isLow := isEnd (4 * mantissa - quartersBelow mantissa exponent)
  have isHigh := isEnd (4 * mantissa + 2)
  rw [Nat.cast_sub fewQuarters] at isLow
  push_cast at isLow isHigh
  have isInterval :
      ofBinary mantissa exponent =
        ⟨(4 * mantissa - quartersBelow mantissa exponent) * (scaled 1 exponent).1,
          4 * mantissa * (scaled 1 exponent).1,
          (4 * mantissa + 2) * (scaled 1 exponent).1, 4 * (scaled 1 exponent).2,
          mantissa % 2 == 0⟩ :=
    rfl
  rw [isInterval, holds]
  simp only [beq_iff_eq]
  split
  · rw [decide_eq_true_iff, ← Nat.cast_le (α := ℚ), ← Nat.cast_le (α := ℚ), isPoint]
    push_cast [Nat.cast_sub fewQuarters] at isLow isHigh ⊢
    rw [isLow, isHigh, mul_le_mul_iff_of_pos_right commonPositive,
      mul_le_mul_iff_of_pos_right commonPositive]
  · rw [decide_eq_true_iff, ← Nat.cast_lt (α := ℚ), ← Nat.cast_lt (α := ℚ), isPoint]
    push_cast [Nat.cast_sub fewQuarters] at isLow isHigh ⊢
    rw [isLow, isHigh, mul_lt_mul_iff_of_pos_right commonPositive,
      mul_lt_mul_iff_of_pos_right commonPositive]

theorem quartersBelow_cases
    (mantissa : Nat)
    (exponent : Int) :
    quartersBelow mantissa exponent = 1 ∧ mantissa = 2 ^ 52 ∧ -1074 < exponent ∨
      quartersBelow mantissa exponent = 2 ∧
        ¬ (mantissa = 2 ^ 52 ∧ -1074 < exponent) := by
  unfold quartersBelow
  split
  · rename_i isLeast
    exact .inl ⟨rfl, isLeast⟩
  · rename_i notLeast
    exact .inr ⟨rfl, notLeast⟩

/-- What the interval holds rounds to the double. -/
theorem roundsTo_of_holds
    (isThere : 0 < mantissa)
    (isPositive : 0 < denominator)
    (isHeld : (ofBinary mantissa exponent).holds numerator denominator = true) :
    RoundsTo (ratio (numerator, denominator)) mantissa exponent := by
  rw [holds_iff isThere isPositive] at isHeld
  have fewQuarters : (quartersBelow mantissa exponent : ℚ) ≤ 2 := by
    rcases quartersBelow_cases mantissa exponent with ⟨isOne, _⟩ | ⟨isTwo, _⟩
    · rw [isOne]
      norm_num
    · rw [isTwo]
      norm_num
  constructor
  · rw [abs_le]
    split at isHeld <;> constructor <;> linarith
  · intro isHalf
    split at isHeld
    · rename_i isEven
      exact Nat.even_iff.mpr isEven
    · have isInside : |ratio (numerator, denominator) / 2 ^ exponent - mantissa| <
          1 / 2 := by
        rw [abs_lt]
        constructor <;> linarith
      exact (isInside.ne isHalf).elim
  · intro isLeast notLowest
    rcases quartersBelow_cases mantissa exponent with ⟨isOne, _⟩ | ⟨_, notLeast⟩
    · rw [isOne] at isHeld
      push_cast at isHeld
      split at isHeld <;> linarith
    · exact (notLeast ⟨isLeast, notLowest⟩).elim

/-- The interval holds what is nearer than its ends. -/
theorem holds_of_near
    (isThere : 0 < mantissa)
    (isPositive : 0 < denominator)
    (isNear : |ratio (numerator, denominator) / 2 ^ exponent - mantissa| < 1 / 2)
    (isNearBelow : mantissa = 2 ^ 52 →
      (mantissa : ℚ) - 1 / 4 < ratio (numerator, denominator) / 2 ^ exponent) :
    (ofBinary mantissa exponent).holds numerator denominator = true := by
  rw [holds_iff isThere isPositive]
  obtain ⟨isAbove, isBelow⟩ := abs_lt.mp isNear
  have isInside : (4 * mantissa - quartersBelow mantissa exponent : ℚ) <
        4 * (ratio (numerator, denominator) / 2 ^ exponent) ∧
      4 * (ratio (numerator, denominator) / 2 ^ exponent) < 4 * mantissa + 2 := by
    refine ⟨?_, by linarith⟩
    rcases quartersBelow_cases mantissa exponent with
      ⟨isOne, isLeast, _⟩ | ⟨isTwo, _⟩
    · have isQuarter := isNearBelow isLeast
      rw [isOne]
      push_cast
      linarith
    · rw [isTwo]
      push_cast
      linarith
  split
  · exact ⟨isInside.1.le, isInside.2.le⟩
  · exact isInside

/-! Candidates. -/

/-- The double itself, as the fraction in the middle of its interval. -/
theorem ratio_middle
    (mantissa : Nat)
    (exponent : Int) :
    ratio ((ofBinary mantissa exponent).middle,
      (ofBinary mantissa exponent).denominator) =
      mantissa * 2 ^ exponent := by
  have isUnit := scaled_one exponent
  have unitPositive : (0 : ℚ) < (scaled 1 exponent).2 := by
    exact_mod_cast scaled_pos 1 exponent
  simp only [ratio, ofBinary]
  push_cast
  rw [isUnit]
  field_simp

theorem denominator_pos
    (mantissa : Nat)
    (exponent : Int) :
    0 < (ofBinary mantissa exponent).denominator :=
  Nat.mul_pos (by decide) (scaled_pos 1 exponent)

theorem middle_pos
    (isThere : 0 < mantissa)
    (exponent : Int) :
    0 < (ofBinary mantissa exponent).middle := by
  have isUnit := scaled_one exponent
  have unitPositive : (0 : ℚ) < (scaled 1 exponent).1 := by
    have isPositive : (0 : ℚ) < (scaled 1 exponent).2 := by
      exact_mod_cast scaled_pos 1 exponent
    rw [isUnit]
    exact mul_pos (two_zpow_pos _) isPositive
  exact Nat.mul_pos (Nat.mul_pos (by decide) isThere)
    (by exact_mod_cast unitPositive)

/-- A decimal is given by the fraction that is tried for it. -/
theorem ratio_back
    (coefficient : Nat)
    (power : Int) :
    ratio (coefficient * (timesPowerOfTen 1 1 (-power)).1,
      (timesPowerOfTen 1 1 (-power)).2) =
      (Decimal.mk coefficient (-power)).number := by
  have isBack := ratio_timesPowerOfTen 1 1 (-power)
  rw [ratio] at isBack ⊢
  rw [Decimal.number, Nat.cast_mul, mul_div_assoc, isBack]
  simp [ratio]

theorem ratio_le_iff
    (isPositive : 0 < denominator)
    (bound : Nat) :
    (bound : ℚ) ≤ ratio (numerator, denominator) ↔
      bound ≤ numerator / denominator := by
  have isThere : (0 : ℚ) < denominator := by
    exact_mod_cast isPositive
  rw [ratio, le_div_iff₀ isThere, Nat.le_div_iff_mul_le isPositive]
  norm_cast

/--
A fraction lifted by its magnitude has as many digits before the point as
it is lifted to.
-/
theorem le_lifted
    {count : Nat}
    (hasDigits : 0 < count)
    (isThere : 0 < numerator)
    (isPositive : 0 < denominator) :
    ((10 ^ (count - 1) : Nat) : ℚ) ≤
      ratio (timesPowerOfTen numerator denominator
        (Int.ofNat count - magnitude numerator denominator)) := by
  have isAbove := (magnitude_bounds isThere isPositive).1
  rw [ratio_timesPowerOfTen, ← ten_zpow_ofNat]
  calc (10 : ℚ) ^ Int.ofNat (count - 1)
      = 10 ^ (magnitude numerator denominator - 1) *
          10 ^ (Int.ofNat count - magnitude numerator denominator) := by
        refine (ten_zpow_mul ?_).symm
        simp only [Int.ofNat_eq_natCast]
        omega
    _ ≤ ratio (numerator, denominator) *
          10 ^ (Int.ofNat count - magnitude numerator denominator) :=
        mul_le_mul_of_nonneg_right isAbove (ten_zpow_pos _).le

/--
A candidate with a number of digits rounds to the double, and it has
that many digits.
-/
theorem candidate?_spec
    {count : Nat}
    {found : Decimal}
    (isThere : 0 < mantissa)
    (hasDigits : 0 < count)
    (isFound : (ofBinary mantissa exponent).candidate? count = some found) :
    RoundsTo found.number mantissa exponent ∧ 10 ^ (count - 1) ≤ found.coefficient ∧
      found.exponent = magnitude (ofBinary mantissa exponent).middle
        (ofBinary mantissa exponent).denominator - Int.ofNat count := by
  have isLifted :=
    le_lifted hasDigits (middle_pos isThere exponent)
      (denominator_pos mantissa exponent)
  have liftedPositive := timesPowerOfTen_pos (denominator_pos mantissa exponent)
    (ofBinary mantissa exponent).middle (Int.ofNat count -
      magnitude (ofBinary mantissa exponent).middle
        (ofBinary mantissa exponent).denominator)
  unfold candidate? at isFound
  simp only at isFound
  generalize hasPower :
    Int.ofNat count - magnitude (ofBinary mantissa exponent).middle
    (ofBinary mantissa exponent).denominator = power at *
  generalize timesPowerOfTen (ofBinary mantissa exponent).middle
    (ofBinary mantissa exponent).denominator power = lifted at *
  have isNearest :=
    (isNearest_roundQuotient liftedPositive lifted.1).le_of_le isLifted
  have isBelow := (ratio_le_iff liftedPositive _).mp isLifted
  have isOther : 10 ^ (count - 1) ≤ if roundQuotient lifted.1 lifted.2 =
      lifted.1 / lifted.2 then lifted.1 / lifted.2 + 1
      else lifted.1 / lifted.2 := by
    split <;> omega
  generalize (if roundQuotient lifted.1 lifted.2 = lifted.1 / lifted.2 then
    lifted.1 / lifted.2 + 1
    else lifted.1 / lifted.2) = other at isFound isOther
  have backPositive := timesPowerOfTen_pos Nat.one_pos 1 (-power)
  have isExponent : -power = magnitude (ofBinary mantissa exponent).middle
      (ofBinary mantissa exponent).denominator - Int.ofNat count := by
    omega
  split at isFound
  · rename_i isHeld
    cases isFound
    have roundsTo := roundsTo_of_holds isThere backPositive isHeld
    rw [ratio_back] at roundsTo
    exact ⟨roundsTo, isNearest, isExponent⟩
  · split at isFound
    · rename_i isHeld
      cases isFound
      have roundsTo := roundsTo_of_holds isThere backPositive isHeld
      rw [ratio_back] at roundsTo
      exact ⟨roundsTo, isOther, isExponent⟩
    · cases isFound

/-- The nearest decimal of seventeen digits is off by a small part of the double. -/
theorem seventeen_near
    {power : Int}
    {nearest : Nat}
    (isNearest : IsNearest (mantissa * 2 ^ exponent * 10 ^ power) nearest)
    (isAbove : (10 : ℚ) ^ (16 - power) ≤ mantissa * 2 ^ exponent) :
    |(Decimal.mk nearest (-power)).number / 2 ^ exponent - mantissa| ≤
      mantissa / (2 * 10 ^ 16) := by
  have isUnit := two_zpow_pos exponent
  have isInverse : (10 : ℚ) ^ power * 10 ^ (-power) = 1 := by
    rw [ten_zpow_mul (add_neg_cancel power), zpow_zero]
  have isSplit : (10 : ℚ) ^ (16 - power) = 10 ^ 16 * 10 ^ (-power) := by
    rw [sub_eq_add_neg, ten_zpow_add]
    norm_num
  have isBack : (Decimal.mk nearest (-power)).number / 2 ^ exponent - mantissa =
      -((mantissa * 2 ^ exponent * 10 ^ power - nearest) * 10 ^ (-power) / 2 ^
        exponent) := by
    have isWhole : (mantissa * 2 ^ exponent * 10 ^ power : ℚ) * 10 ^ (-power) =
        mantissa * 2 ^ exponent := by
      rw [mul_assoc, isInverse, mul_one]
    rw [Decimal.number, sub_mul, isWhole]
    field_simp
    ring
  have isPart : (10 : ℚ) ^ (-power) / 2 ^ exponent ≤ mantissa / 10 ^ 16 := by
    rw [isSplit] at isAbove
    rw [div_le_div_iff₀ isUnit (by norm_num)]
    linarith
  rw [isBack, abs_neg, mul_div_assoc, abs_mul,
    abs_of_pos (div_pos (ten_zpow_pos _) isUnit)]
  calc |(mantissa : ℚ) * 2 ^ exponent * 10 ^ power - nearest| *
    (10 ^ (-power) / 2 ^ exponent)
      ≤ 1 / 2 * (mantissa / 10 ^ 16) :=
        mul_le_mul isNearest.isNear isPart (div_pos (ten_zpow_pos _) isUnit).le
          (by norm_num)
    _ = mantissa / (2 * 10 ^ 16) := by ring

/-- Seventeen digits are finer than half the distance between doubles. -/
theorem candidate?_seventeen
    (isThere : 0 < mantissa)
    (isShort : mantissa < 2 ^ 53) :
    ((ofBinary mantissa exponent).candidate? 17).isSome = true := by
  have isPositive := denominator_pos mantissa exponent
  have isAbove := (magnitude_bounds (middle_pos isThere exponent) isPositive).1
  have isMiddle := ratio_middle mantissa exponent
  unfold candidate?
  simp only
  generalize hasPower : Int.ofNat 17 - magnitude (ofBinary mantissa exponent).middle
    (ofBinary mantissa exponent).denominator = power
  have isNearest := isNearest_roundQuotient
    (timesPowerOfTen_pos isPositive (ofBinary mantissa exponent).middle power)
    (timesPowerOfTen (ofBinary mantissa exponent).middle
      (ofBinary mantissa exponent).denominator power).1
  rw [ratio_timesPowerOfTen, isMiddle] at isNearest
  rw [isMiddle, show magnitude (ofBinary mantissa exponent).middle
    (ofBinary mantissa exponent).denominator - 1 = 16 - power by
      simp only [Int.ofNat_eq_natCast] at hasPower
      omega] at isAbove
  have isNear := seventeen_near isNearest isAbove
  generalize roundQuotient _ _ = nearest at isNear ⊢
  have isBound : (mantissa : ℚ) < 2 ^ 53 := by
    exact_mod_cast isShort
  have isHeld :
      (ofBinary mantissa exponent).holds
        (nearest * (timesPowerOfTen 1 1 (-power)).1)
        (timesPowerOfTen 1 1 (-power)).2 = true := by
    refine holds_of_near isThere (timesPowerOfTen_pos Nat.one_pos 1 (-power)) ?_
      fun isLeast => ?_
    · rw [ratio_back]
      refine isNear.trans_lt ?_
      rw [div_lt_div_iff₀ (by norm_num) (by norm_num)]
      linarith
    · rw [ratio_back]
      have isMantissa : (mantissa : ℚ) = 2 ^ 52 := by
        rw [isLeast]
        norm_num
      have isClose := (abs_le.mp isNear).1
      rw [isMantissa] at isClose ⊢
      norm_num at isClose ⊢
      linarith
  rw [if_pos isHeld]
  rfl

end RoundingInterval

/--
The shortest decimal of a double is one of the candidates, without
its trailing zeros.
-/
theorem exists_candidate
    {mantissa : Nat}
    (isThere : 0 < mantissa)
    (isShort : mantissa < 2 ^ 53)
    (exponent : Int) :
    ∃ count found, 0 < count ∧
      (RoundingInterval.ofBinary mantissa exponent).candidate? count = some found ∧
      shortest mantissa exponent = found.trimmed := by
  rw [shortest, if_neg isThere.ne']
  simp only
  split
  · rename_i found isFound
    obtain ⟨place, _, isCandidate⟩ := List.exists_of_findSome?_eq_some isFound
    exact ⟨place + 1, found, Nat.succ_pos place, isCandidate, rfl⟩
  · rename_i noCandidate
    rw [List.findSome?_eq_none_iff] at noCandidate
    have hasSeventeen :
        ((RoundingInterval.ofBinary mantissa exponent).candidate? 17).isSome =
          true :=
      RoundingInterval.candidate?_seventeen isThere isShort
    rw [noCandidate 16 (by decide)] at hasSeventeen
    cases hasSeventeen

/--
The shortest decimal rounds to the double, and no power of ten lies
between the two.
-/
theorem shortest_spec
    {mantissa : Nat}
    (isThere : 0 < mantissa)
    (isShort : mantissa < 2 ^ 53)
    (exponent : Int) :
    RoundsTo (shortest mantissa exponent).number mantissa exponent ∧
      ∀ power : Int, (10 : ℚ) ^ power < mantissa * 2 ^ exponent →
        10 ^ power ≤ (shortest mantissa exponent).number := by
  obtain ⟨count, found, hasDigits, isFound, isShortest⟩ :=
    exists_candidate isThere isShort exponent
  obtain ⟨roundsTo, isLong, isExponent⟩ :=
    RoundingInterval.candidate?_spec isThere hasDigits isFound
  have isBelow := (magnitude_bounds (RoundingInterval.middle_pos isThere exponent)
    (RoundingInterval.denominator_pos mantissa exponent)).2
  rw [RoundingInterval.ratio_middle] at isBelow
  rw [isShortest, Decimal.number_trimmed]
  refine ⟨roundsTo, fun power isLess => ?_⟩
  have isLower := ten_zpow_lt_iff.mp (isLess.trans_le isBelow)
  generalize magnitude _ _ = size at isExponent isLower
  have isCoefficient : (10 : ℚ) ^ Int.ofNat (count - 1) ≤ found.coefficient := by
    rw [ten_zpow_ofNat]
    exact_mod_cast isLong
  calc (10 : ℚ) ^ power ≤ 10 ^ (size - 1) := ten_zpow_le_iff.mpr (by omega)
    _ = 10 ^ Int.ofNat (count - 1) * 10 ^ found.exponent := by
        refine (ten_zpow_mul ?_).symm
        simp only [isExponent, Int.ofNat_eq_natCast]
        omega
    _ ≤ found.coefficient * 10 ^ found.exponent :=
        mul_le_mul_of_nonneg_right isCoefficient (ten_zpow_pos _).le

end DesignTokens.Number
