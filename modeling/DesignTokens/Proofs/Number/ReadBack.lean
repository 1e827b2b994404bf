import DesignTokens.Proofs.Number.NumeralValues
import DesignTokens.Proofs.Number.ShortestDigits

namespace DesignTokens.Number

/-!
# Written numbers that are read again

A decimal that is written without an exponent is written as a numeral that
denotes it.  So whole doubles and doubles in their shortest digits are read
again as themselves, and doubles in six digits as what is nearest to the six
digits, which is the same double where six digits denote it.
-/

open DesignTokens.Text

/--
A text is a numeral with digits before the point, of the given sign and number.
-/
def Denotes (chars : List Char) (negative : Bool) (number : ℚ) : Prop :=
  ∃ numeral : PlainNumeral, numeral.negative = negative ∧ numeral.whole ≠ [] ∧
    numeral.number = number ∧ chars = numeral.text

theorem denotes_withSign
    (negative : Bool)
    {whole : List Char}
    (fraction : List Char)
    (isThere : whole ≠ [])
    (wholeDigits : ∀ c ∈ whole, c.isDigit = true)
    (fractionDigits : ∀ c ∈ fraction, c.isDigit = true) :
    Denotes (withSign negative (whole ++ fractionText fraction)).toList negative
      (digitsValue (whole ++ fraction) / 10 ^ fraction.length) := by
  refine ⟨⟨negative, whole, fraction,
    fun c isMember => isDecimal_of_isDigit (wholeDigits c isMember),
    fun c isMember => isDecimal_of_isDigit (fractionDigits c isMember),
    .inl isThere⟩, rfl, isThere, rfl, ?_⟩
  rw [toList_withSign]
  rfl

/-- A whole number is written as the numeral that denotes it. -/
theorem denotes_intText
    (whole : Int) :
    Denotes (intText whole).toList (decide (whole < 0)) whole.natAbs := by
  have denotes := denotes_withSign (decide (whole < 0)) []
    (Decimal.digits_ne_nil whole.natAbs)
    (fun _ => Decimal.isDigit_of_mem_digits) (List.forall_mem_nil _)
  rwa [fractionText_nil, List.append_nil, digitsValue_digits, List.length_nil,
    pow_zero, div_one] at denotes

/-! Positional decimals. -/

section Layouts

variable {value : Decimal} (negative : Bool)

theorem coefficient_div
    {count : Nat}
    (isLength : value.exponent = -Int.ofNat count) :
    (value.coefficient : ℚ) / 10 ^ count = value.number := by
  rw [Decimal.number, isLength, zpow_neg, ten_zpow_ofNat, div_eq_mul_inv]
  push_cast
  rfl

/-- Digits behind a point and zeros denote a decimal below one. -/
theorem denotes_small
    (isSmall : value.leading < 0) :
    Denotes
      (withSign negative
        ('0' :: '.' ::
          (List.replicate (-value.leading - 1).toNat '0' ++
            Decimal.digits value.coefficient))).toList
      negative value.number := by
  have isThere := Decimal.digits_ne_nil value.coefficient
  have denotes := denotes_withSign negative
    (List.replicate (-value.leading - 1).toNat '0' ++
      Decimal.digits value.coefficient)
    (List.cons_ne_nil '0' []) (List.forall_mem_singleton.mpr rfl)
    (List.forall_mem_append.mpr
      ⟨fun _ => isDigit_of_mem_zeros, fun _ => Decimal.isDigit_of_mem_digits⟩)
  rw [fractionText_of_ne_nil (by simp [isThere])] at denotes
  have isValue :
      digitsValue
        (['0'] ++
          (List.replicate (-value.leading - 1).toNat '0' ++
            Decimal.digits value.coefficient)) = value.coefficient := by
    rw [← List.append_assoc, digitsValue_append, digitsValue_append,
      digitsValue_zeros, digitsValue_digits]
    simp [digitsValue, digitValue?]
  rw [isValue, coefficient_div] at denotes
  · exact denotes
  · have isLeading : value.leading =
        Int.ofNat (Decimal.digits value.coefficient).length + value.exponent - 1 :=
      rfl
    rw [List.length_append, List.length_replicate]
    simp only [Int.ofNat_eq_natCast] at *
    omega

/-- Digits with a point among them denote a decimal with digits on both sides. -/
theorem denotes_cut
    {count : Nat}
    (isThere : 0 < count)
    (isCount : value.leading + 1 = Int.ofNat count)
    (isLong : count < (Decimal.digits value.coefficient).length) :
    Denotes
      (withSign negative
        ((Decimal.digits value.coefficient).take count ++
          fractionText ((Decimal.digits value.coefficient).drop count))).toList
      negative value.number := by
  have areDigits : ∀ c ∈ Decimal.digits value.coefficient, c.isDigit = true :=
    fun _ => Decimal.isDigit_of_mem_digits
  have hasWhole : (Decimal.digits value.coefficient).take count ≠ [] := by
    rw [ne_eq, List.take_eq_nil_iff, not_or]
    exact ⟨isThere.ne', Decimal.digits_ne_nil _⟩
  have denotes := denotes_withSign negative
    ((Decimal.digits value.coefficient).drop count) hasWhole
    (fun c isMember => areDigits c (List.mem_of_mem_take isMember))
    (fun c isMember => areDigits c (List.mem_of_mem_drop isMember))
  rw [List.take_append_drop, digitsValue_digits, coefficient_div] at denotes
  · exact denotes
  · have isLeading : value.leading =
        Int.ofNat (Decimal.digits value.coefficient).length + value.exponent - 1 :=
      rfl
    rw [List.length_drop]
    simp only [Int.ofNat_eq_natCast] at *
    omega

/--
Digits with zeros behind them denote a whole decimal, with zeros
behind a point or not.
-/
theorem denotes_whole
    (places : Nat)
    (isWhole : 0 ≤ value.exponent) :
    Denotes
      (withSign negative
        (Decimal.digits value.coefficient ++
          List.replicate value.exponent.toNat '0' ++
            fractionText (List.replicate places '0'))).toList
      negative value.number := by
  have areDigits :
      ∀ c ∈ Decimal.digits value.coefficient ++
          List.replicate value.exponent.toNat '0',
        c.isDigit = true :=
    List.forall_mem_append.mpr
      ⟨fun _ => Decimal.isDigit_of_mem_digits, fun _ => isDigit_of_mem_zeros⟩
  have denotes := denotes_withSign negative (List.replicate places '0')
    (List.append_ne_nil_of_left_ne_nil (Decimal.digits_ne_nil value.coefficient) _)
    areDigits (fun _ => isDigit_of_mem_zeros)
  have asPower := ten_zpow_ofNat value.exponent.toNat
  rw [show Int.ofNat value.exponent.toNat = value.exponent by
    simp only [Int.ofNat_eq_natCast]
    omega] at asPower
  rw [digitsValue_append, digitsValue_append, digitsValue_zeros, digitsValue_zeros,
    digitsValue_digits, List.length_replicate, List.length_replicate, Nat.add_zero,
    Nat.add_zero] at denotes
  rw [Decimal.number, asPower]
  push_cast at denotes ⊢
  rwa [mul_div_assoc, div_self (by positivity), mul_one] at denotes

end Layouts

/-- Without an exponent a decimal is written as a numeral that denotes it. -/
theorem denotes_layout
    {style : Style}
    {value : Decimal}
    (isPositional : style.positionalFrom ≤ value.leading ∧
      value.leading < style.positionalBelow)
    (negative : Bool) :
    Denotes (withSign negative (layout style value)).toList negative
      value.number := by
  have isLeading : value.leading =
      Int.ofNat (Decimal.digits value.coefficient).length + value.exponent - 1 :=
    rfl
  unfold layout
  simp only
  rw [if_pos isPositional]
  split
  · rename_i isSmall
    exact denotes_small negative isSmall
  · rename_i notSmall
    have isCount : value.leading + 1 = Int.ofNat (value.leading + 1).toNat := by
      simp only [Int.ofNat_eq_natCast]
      omega
    generalize (value.leading + 1).toNat = count at isCount ⊢
    split
    · rename_i isEmpty
      rw [List.isEmpty_iff, List.drop_eq_nil_iff] at isEmpty
      have isExponent : count - (Decimal.digits value.coefficient).length =
          value.exponent.toNat := by
        simp only [Int.ofNat_eq_natCast] at *
        omega
      have isWhole : 0 ≤ value.exponent := by
        simp only [Int.ofNat_eq_natCast] at *
        omega
      rw [List.take_of_length_le isEmpty, isExponent]
      split
      · exact denotes_whole negative 1 isWhole
      · have denotes := denotes_whole negative 0 isWhole
        rwa [List.replicate_zero, fractionText_nil, List.append_nil] at denotes
    · rename_i isFraction
      rw [List.isEmpty_iff, List.drop_eq_nil_iff, Nat.not_le] at isFraction
      have isThere : 0 < count := by
        simp only [Int.ofNat_eq_natCast] at *
        omega
      have denotes := denotes_cut negative isThere isCount isFraction
      rw [fractionText_of_ne_nil (by
        rw [ne_eq, List.drop_eq_nil_iff]
        omega)] at denotes
      rwa [Nat.sub_eq_zero_of_le isFraction.le, List.replicate_zero,
        List.append_nil]

/-! Doubles that are read again. -/

namespace Decimal

/-- The double nearest to a decimal with a sign. -/
def toFloat (negative : Bool) (value : Decimal) : Float :=
  let fraction := timesPowerOfTen value.coefficient 1 value.exponent
  nearestFloat negative fraction.1 fraction.2

theorem ratio_fraction
    (value : Decimal) :
    ratio (timesPowerOfTen value.coefficient 1 value.exponent) = value.number := by
  rw [ratio_timesPowerOfTen, number, ratio, Nat.cast_one, div_one]

theorem toFloat_congr
    {left right : Decimal}
    (isSame : left.number = right.number)
    (negative : Bool) :
    left.toFloat negative = right.toFloat negative :=
  nearestFloat_congr (timesPowerOfTen_pos Nat.one_pos _ _)
    (timesPowerOfTen_pos Nat.one_pos _ _)
    (by rw [ratio_fraction, ratio_fraction, isSame]) negative

end Decimal

/-- What denotes a decimal is read as the double nearest to it. -/
theorem Denotes.exists_value
    {chars : List Char}
    {negative : Bool}
    {value : Decimal}
    (denotes : Denotes chars negative value.number)
    (isModerate : PlainNumeral.IsModerate value.number) :
    ∃ numeral : PlainNumeral, numeral.negative = negative ∧ numeral.whole ≠ [] ∧
      chars = numeral.text ∧ numeral.value = value.toFloat negative := by
  obtain ⟨numeral, rfl, hasWhole, isNumber, isText⟩ := denotes
  refine ⟨numeral, rfl, hasWhole, isText, ?_⟩
  rw [← isNumber] at isModerate
  exact numeral.value_eq_nearestFloat isModerate
    (timesPowerOfTen_pos Nat.one_pos _ _)
    (value.ratio_fraction.trans isNumber.symm)

section Finite

variable {value : Float} {negative : Bool} {mantissa : Nat} {exponent : Int}

/-- The exact content of a finite double is below the limit of doubles. -/
theorem content_lt
    (isCanonical : IsCanonical mantissa exponent) :
    (mantissa : ℚ) * 2 ^ exponent < 2 ^ (1024 : Int) := by
  have isShort : (mantissa : ℚ) < 2 ^ 53 := by
    exact_mod_cast isCanonical.isShort
  calc (mantissa : ℚ) * 2 ^ exponent < 2 ^ 53 * 2 ^ exponent :=
        mul_lt_mul_of_pos_right isShort (two_zpow_pos _)
    _ = 2 ^ (exponent + (53 : Nat)) := (two_zpow_add_eq exponent 53).symm
    _ ≤ 2 ^ (1024 : Int) :=
      two_zpow_le_iff.mpr (by have notHigh := isCanonical.notHigh; omega)

/-- The limit of doubles is a number of less than 310 digits. -/
theorem limit_lt :
    (2 : ℚ) ^ (1024 : Int) < 10 ^ (310 : Int) := by
  have isLess : 2 ^ 1024 < 10 ^ 310 := by decide +kernel
  exact_mod_cast isLess

/-- A decimal that rounds to a double has the double for its nearest one. -/
theorem toFloat_of_roundsTo
    {decimal : Decimal}
    (isFinite : Binary.ofFloat value = .finite negative mantissa exponent)
    (isThere : 0 < decimal.number)
    (roundsTo : RoundsTo decimal.number mantissa exponent) :
    decimal.toFloat negative = value := by
  have isPositive :=
    timesPowerOfTen_pos Nat.one_pos decimal.coefficient decimal.exponent
  have isRatio := decimal.ratio_fraction
  unfold Decimal.toFloat
  simp only
  generalize timesPowerOfTen decimal.coefficient 1 decimal.exponent = fraction at *
  have hasNumerator : 0 < fraction.1 := by
    rw [← isRatio] at isThere
    by_contra noNumerator
    rw [ratio, Nat.eq_zero_of_not_pos noNumerator] at isThere
    simp at isThere
  exact nearestFloat_of_roundsTo isFinite hasNumerator isPositive
    (isRatio ▸ roundsTo)

/--
The content of a whole double is a natural number, and it is what is left
without a fraction.
-/
theorem exists_truncate
    (isFinite : Binary.ofFloat value = .finite negative mantissa exponent)
    (whole : isWhole value = true) :
    ∃ count : Nat, truncate value = .ok (signed negative count) ∧
      (count : ℚ) = mantissa * 2 ^ exponent := by
  have isPositive := scaled_pos mantissa exponent
  unfold isWhole at whole
  rw [isFinite] at whole
  simp only [beq_iff_eq] at whole
  refine ⟨(scaled mantissa exponent).1 / (scaled mantissa exponent).2, ?_, ?_⟩
  · rw [truncate, toWhole, isFinite]
  · rw [← ratio_scaled, ratio, Nat.cast_div (Nat.dvd_of_mod_eq_zero whole)
      (by exact_mod_cast isPositive.ne')]

theorem signed_lt_zero
    {count : Nat}
    (isThere : 0 < count)
    (negative : Bool) :
    decide (signed negative count < 0) = negative ∧
      (signed negative count).natAbs = count := by
  unfold signed
  cases negative
  · simp
  · simpa using isThere

theorem beq_self_of_finite
    (isFinite : Binary.ofFloat value = .finite negative mantissa exponent) :
    (value == value) = true := by
  rw [Float.beq_self_iff]
  rintro rfl
  have isUndefined : Binary.ofFloat Float.nan = .notANumber := by decide
  rw [isUndefined] at isFinite
  cases isFinite

/-- Without a mantissa there are only the two zeros. -/
theorem eq_zero_of_finite
    (isFinite : Binary.ofFloat value = .finite negative 0 exponent) :
    value = if negative then -0 else 0 := by
  obtain ⟨isCanonical, rfl⟩ := ofBits_of_finite isFinite
  have isLowest : exponent = -1074 := isCanonical.isFull.resolve_right (by decide)
  subst isLowest
  cases negative <;> decide

/-- The two zeros are equal. -/
theorem zero_beq_of_finite
    (isFinite : Binary.ofFloat value = .finite negative 0 exponent) :
    (nearestFloat false 0 1 == value) = true := by
  rw [eq_zero_of_finite isFinite]
  cases negative <;> decide

/-- A whole double is read again from its digits. -/
theorem exists_whole_numeral
    (isFinite : Binary.ofFloat value = .finite negative mantissa exponent)
    (whole : isWhole value = true) :
    ∃ (truncated : Int) (numeral : PlainNumeral), truncate value = .ok truncated ∧
      numeral.whole ≠ [] ∧ (intText truncated).toList = numeral.text ∧
      (negative = false → numeral.negative = false) ∧
        (numeral.value == value) = true := by
  obtain ⟨count, isTruncated, isContent⟩ := exists_truncate isFinite whole
  obtain ⟨isCanonical, _⟩ := ofBits_of_finite isFinite
  obtain ⟨numeral, isSign, hasWhole, isNumber, isText⟩ :=
    denotes_intText (signed negative count)
  refine ⟨_, numeral, isTruncated, hasWhole, isText, ?_, ?_⟩
  · rintro rfl
    rw [isSign]
    simp [signed]
  · have hasSize : (signed negative count).natAbs = count := by
      cases negative <;> simp [signed]
    rw [hasSize] at isNumber
    rcases Nat.eq_zero_or_pos count with rfl | isThere
    · have noMantissa : mantissa = 0 := by
        have isProduct := isContent.symm
        rw [Nat.cast_zero, mul_eq_zero] at isProduct
        exact_mod_cast isProduct.resolve_right (two_zpow_pos exponent).ne'
      subst noMantissa
      have isZero : numeral.value = nearestFloat numeral.negative 0 1 :=
        numeral.value_eq_nearestFloat
          ⟨.inl (by simpa using isNumber), by rw [isNumber]; norm_num⟩
          Nat.one_pos (by rw [isNumber]; simp [ratio])
      rw [isZero, isSign]
      cases negative <;> exact zero_beq_of_finite isFinite
    · have isModerate : PlainNumeral.IsModerate numeral.number := by
        rw [isNumber]
        refine ⟨.inr ?_, ?_⟩
        · have isOne : (1 : ℚ) ≤ count := by exact_mod_cast isThere
          have isSmall : (10 : ℚ) ^ (-330 : Int) ≤ 10 ^ (0 : Int) :=
            ten_zpow_le_iff.mpr (by decide)
          exact isSmall.trans (by rwa [zpow_zero])
        · rw [isContent]
          exact (content_lt isCanonical).trans limit_lt
      have isSame : numeral.value = nearestFloat numeral.negative count 1 :=
        numeral.value_eq_nearestFloat isModerate Nat.one_pos
          (by rw [isNumber]; simp [ratio])
      have roundsTo : RoundsTo (ratio (count, 1)) mantissa exponent :=
        roundsTo_self (by rw [ratio, Nat.cast_one, div_one, isContent])
      rw [isSame, isSign, (signed_lt_zero isThere negative).1,
        nearestFloat_of_roundsTo isFinite isThere Nat.one_pos roundsTo]
      exact beq_self_of_finite isFinite

/--
A double with a fraction is not zero, and its last digit stands
behind the point.
-/
theorem fraction_of_not_whole
    (isFinite : Binary.ofFloat value = .finite negative mantissa exponent)
    (notWhole : isWhole value = false) :
    0 < mantissa ∧ exponent < 0 := by
  unfold isWhole at notWhole
  rw [isFinite] at notWhole
  constructor
  · by_contra isZero
    rw [Nat.eq_zero_of_not_pos isZero] at notWhole
    cases exponent <;> simp [scaled] at notWhole
  · by_contra isUp
    obtain ⟨up, rfl⟩ := Int.eq_ofNat_of_zero_le (Int.not_lt.mp isUp)
    simp [scaled, Nat.mod_one] at notWhole

/-- The leading exponent of a decimal between two powers of ten. -/
theorem leading_range
    {decimal : Decimal}
    {low high : Int}
    (isAbove : (10 : ℚ) ^ low ≤ decimal.number)
    (isBelow : decimal.number < 10 ^ high) :
    low ≤ decimal.leading ∧ decimal.leading < high := by
  have isThere := Decimal.number_pos_iff.mp ((ten_zpow_pos low).trans_le isAbove)
  obtain ⟨leadingLow, leadingHigh⟩ := Decimal.leading_bounds isThere
  have isLess := ten_zpow_lt_iff.mp (isAbove.trans_lt leadingHigh)
  have isMore := ten_zpow_lt_iff.mp (leadingLow.trans_lt isBelow)
  omega

theorem isModerate_of_range
    {number : ℚ}
    {low high : Int}
    (isAbove : (10 : ℚ) ^ low ≤ number)
    (isBelow : number < 10 ^ high)
    (notLow : -330 ≤ low)
    (notHigh : high ≤ 310) :
    PlainNumeral.IsModerate number :=
  ⟨.inr ((ten_zpow_le_iff.mpr notLow).trans isAbove),
    isBelow.trans_le (ten_zpow_le_iff.mpr notHigh)⟩

/-- The size of a finite double, as a number. -/
def size (value : Float) : ℚ :=
  match Binary.ofFloat value with
  | .finite _ mantissa exponent => mantissa * 2 ^ exponent
  | _ => 0

/-- A double that is written in its shortest digits without an exponent. -/
structure IsPlainInFull (value : Float) : Prop where
  isFinite : value.isFinite = true
  notSmall : isWhole value = false → 1 / 10000 < size value

instance (value : Float) : Decidable (IsPlainInFull value) :=
  decidable_of_iff
    (value.isFinite = true ∧ (isWhole value = false → 1 / 10000 < size value))
    ⟨fun parts => ⟨parts.1, parts.2⟩,
      fun isPlain => ⟨isPlain.isFinite, isPlain.notSmall⟩⟩

/--
A double with a fraction that is not small is read again from its
shortest digits.
-/
theorem exists_plain_numeral
    (isPlain : IsPlainInFull value)
    (notWhole : isWhole value = false) :
    ∃ numeral : PlainNumeral, numeral.whole ≠ [] ∧
      (plainText value).toList = numeral.text ∧
      numeral.value = value := by
  obtain ⟨hasContent, notSmall⟩ := isPlain
  obtain ⟨negative, mantissa, exponent, isFinite⟩ :=
    exists_finite_of_isFinite hasContent
  have isLarge := notSmall notWhole
  rw [size, isFinite] at isLarge
  obtain ⟨isThere, isDown⟩ := fraction_of_not_whole isFinite notWhole
  obtain ⟨isCanonical, _⟩ := ofBits_of_finite isFinite
  have isWritten : plainText value =
      withSign negative (layout .stored (shortest mantissa exponent)) := by
    rw [plainText, floatText, isFinite]
  obtain ⟨roundsTo, isAbove⟩ := shortest_spec isThere isCanonical.isShort exponent
  generalize shortest mantissa exponent = decimal at isWritten roundsTo isAbove
  have isLow : (10 : ℚ) ^ (-4 : Int) ≤ decimal.number :=
    isAbove (-4) (lt_of_eq_of_lt (by norm_num) isLarge)
  have isHigh : decimal.number < 10 ^ (16 : Int) := by
    have isNear := (abs_le.mp roundsTo.isNear).2
    have isShort : (mantissa : ℚ) + 1 ≤ 2 ^ 53 := by
      exact_mod_cast isCanonical.isShort
    have isPart : (2 : ℚ) ^ exponent ≤ 2 ^ (0 : Int) :=
      two_zpow_le_iff.mpr isDown.le
    rw [zpow_zero] at isPart
    have isShare : decimal.number < 2 ^ 53 * 2 ^ exponent := by
      rw [← div_lt_iff₀ (two_zpow_pos _)]
      linarith
    calc decimal.number < 2 ^ 53 * 2 ^ exponent := isShare
      _ ≤ 2 ^ 53 * 1 := mul_le_mul_of_nonneg_left isPart (by norm_num)
      _ ≤ 10 ^ (16 : Int) := by norm_num
  have isPositional : Style.stored.positionalFrom ≤ decimal.leading ∧
      decimal.leading < Style.stored.positionalBelow :=
    leading_range isLow isHigh
  obtain ⟨numeral, _, hasWhole, isText, isValue⟩ :=
    (denotes_layout isPositional negative).exists_value
      (isModerate_of_range isLow isHigh (by decide) (by decide))
  refine ⟨numeral, hasWhole, ?_, ?_⟩
  · rw [isWritten]
    exact isText
  · rw [isValue]
    exact toFloat_of_roundsTo isFinite ((ten_zpow_pos _).trans_le isLow) roundsTo

end Finite

/-! Six digits. -/

/-- The number that is written for a double in six significant digits. -/
def sixDigits (value : Float) : Decimal :=
  match Binary.ofFloat value with
  | .finite _ mantissa exponent =>
      let fraction := scaled mantissa exponent
      significant fraction.1 fraction.2 6
  | _ => ⟨0, 0⟩

/--
A double that is written in six digits without an exponent, if it is not whole.
-/
structure IsPlainInSix (value : Float) : Prop where
  isFinite : value.isFinite = true
  isMiddling : isWhole value = false →
    1 / 10000 ≤ (sixDigits value).number ∧ (sixDigits value).number < 1000000

instance (value : Float) : Decidable (IsPlainInSix value) :=
  decidable_of_iff
    (value.isFinite = true ∧ (isWhole value = false →
      1 / 10000 ≤ (sixDigits value).number ∧ (sixDigits value).number < 1000000))
    ⟨fun parts => ⟨parts.1, parts.2⟩,
      fun isPlain => ⟨isPlain.isFinite, isPlain.isMiddling⟩⟩

/-- The double nearest to the six digits of a double. -/
def inSixDigits (value : Float) : Float :=
  (sixDigits value).toFloat (hasSignBit value)

/--
A decimal of at most six digits to which no other one is nearer than the double.
-/
structure IsNearestInSix (value : Float) (number : ℚ) : Prop where
  isShort : ∃ decimal : Decimal, decimal.coefficient < 10 ^ 6 ∧
    decimal.number = number
  isNearest :
    ∀ other : Decimal, other.coefficient < 10 ^ 6 →
      |size value - number| ≤ |size value - other.number|

/-- The double nearest to some decimal of at most six digits. -/
def HasSixDigits (value : Float) : Prop :=
  ∃ (negative : Bool) (decimal : Decimal), decimal.coefficient < 10 ^ 6 ∧
    value = decimal.toFloat negative

section Finite

variable {value : Float} {negative : Bool} {mantissa : Nat} {exponent : Int}

theorem hasSignBit_of_finite
    (isFinite : Binary.ofFloat value = .finite negative mantissa exponent) :
    hasSignBit value = negative := by
  unfold Binary.ofFloat Binary.ofBits at isFinite
  simp only at isFinite
  unfold hasSignBit
  split at isFinite
  · split at isFinite <;> cases isFinite
  · split at isFinite <;> exact (Binary.finite.inj isFinite).1

/--
A double in six digits without an exponent is read as the nearest one
of the six digits.
-/
theorem exists_general_numeral
    (hasContent : value.isFinite = true)
    (isAbove : 1 / 10000 ≤ (sixDigits value).number)
    (isBelow : (sixDigits value).number < 1000000) :
    ∃ numeral : PlainNumeral, numeral.negative = hasSignBit value ∧
      numeral.whole ≠ [] ∧
      (generalText value).toList = numeral.text ∧
        numeral.value = inSixDigits value := by
  obtain ⟨negative, mantissa, exponent, isFinite⟩ :=
    exists_finite_of_isFinite hasContent
  have isWritten : generalText value =
      withSign negative (layout .general (sixDigits value).trimmed) := by
    rw [generalText, floatText, sixDigits, isFinite]
  have isLow : (10 : ℚ) ^ (-4 : Int) ≤ (sixDigits value).trimmed.number := by
    rw [Decimal.number_trimmed]
    exact le_of_eq_of_le (by norm_num) isAbove
  have isHigh : (sixDigits value).trimmed.number < 10 ^ (6 : Int) := by
    rw [Decimal.number_trimmed]
    exact isBelow.trans_eq (by norm_num)
  have isPositional :
      Style.general.positionalFrom ≤ (sixDigits value).trimmed.leading ∧
        (sixDigits value).trimmed.leading < Style.general.positionalBelow :=
    leading_range isLow isHigh
  obtain ⟨numeral, isSign, hasWhole, isText, isValue⟩ :=
    (denotes_layout isPositional negative).exists_value
      (isModerate_of_range isLow isHigh (by decide) (by decide))
  rw [inSixDigits, hasSignBit_of_finite isFinite]
  refine ⟨numeral, isSign, hasWhole, ?_, ?_⟩
  · rw [isWritten]
    exact isText
  · rw [isValue]
    exact Decimal.toFloat_congr (Decimal.number_trimmed _) negative

theorem sixDigits_of_finite
    (isFinite : Binary.ofFloat value = .finite negative mantissa exponent) :
    sixDigits value =
      significant (scaled mantissa exponent).1 (scaled mantissa exponent).2 6 := by
  rw [sixDigits, isFinite]

theorem numerator_pos
    (isThere : 0 < mantissa)
    (exponent : Int) :
    0 < (scaled mantissa exponent).1 := by
  cases exponent with
  | ofNat up => exact Nat.mul_pos isThere (Nat.pow_pos (by decide))
  | negSucc down => exact isThere

/-- The six digits of a double make a decimal of at most six digits. -/
theorem exists_sixDigits
    (isFinite : Binary.ofFloat value = .finite negative mantissa exponent)
    (isThere : 0 < mantissa) :
    ∃ decimal : Decimal, decimal.coefficient < 10 ^ 6 ∧
      decimal.number = (sixDigits value).number := by
  have isFew := coefficient_significant_le (numerator_pos isThere exponent)
    (scaled_pos mantissa exponent) 6
  rw [← sixDigits_of_finite isFinite] at isFew
  rcases Nat.lt_or_ge (sixDigits value).coefficient (10 ^ 6) with isLess | isMore
  · exact ⟨sixDigits value, isLess, rfl⟩
  · refine ⟨⟨1, (sixDigits value).exponent + 6⟩,
      Nat.one_lt_pow (by decide) (by decide), ?_⟩
    rw [Decimal.number, Decimal.number, Nat.le_antisymm isFew isMore,
      zpow_add₀ (by norm_num)]
    push_cast
    norm_num
    ring

theorem ratio_content
    (mantissa : Nat)
    (exponent : Int) :
    ratio ((scaled mantissa exponent).1, (scaled mantissa exponent).2) =
      mantissa * 2 ^ exponent :=
  ratio_scaled mantissa exponent

theorem number_sixDigits_le
    (isFinite : Binary.ofFloat value = .finite negative mantissa exponent)
    (isThere : 0 < mantissa) :
    (sixDigits value).number ≤ 10 * (mantissa * 2 ^ exponent) := by
  rw [sixDigits_of_finite isFinite, ← ratio_content]
  exact number_significant_le (numerator_pos isThere exponent)
    (scaled_pos mantissa exponent) 6

/-- A double that is not tiny has all of its 53 digits. -/
theorem full_of_middling
    (isFinite : Binary.ofFloat value = .finite negative mantissa exponent)
    (isThere : 0 < mantissa)
    (isAbove : 1 / 10000 ≤ (sixDigits value).number) :
    2 ^ 52 ≤ mantissa := by
  obtain ⟨isCanonical, _⟩ := ofBits_of_finite isFinite
  refine isCanonical.isFull.resolve_left fun isLowest => ?_
  have isTenfold := number_sixDigits_le isFinite isThere
  have isShort : (mantissa : ℚ) < 2 ^ 53 := by
    exact_mod_cast isCanonical.isShort
  have isTiny : (2 : ℚ) ^ exponent ≤ 2 ^ (-100 : Int) :=
    two_zpow_le_iff.mpr (by omega)
  have isBound : (mantissa : ℚ) * 2 ^ exponent ≤ 2 ^ 53 * 2 ^ (-100 : Int) :=
    mul_le_mul isShort.le isTiny (two_zpow_pos _).le (by norm_num)
  norm_num at isBound
  linarith

/--
A double that is nearest to a decimal of six digits has these
for its six digits.
-/
theorem number_sixDigits_of_nearest
    {decimal : Decimal}
    (isFinite : Binary.ofFloat value = .finite negative mantissa exponent)
    (isThere : 0 < mantissa)
    (isAbove : 1 / 10000 ≤ (sixDigits value).number)
    (isShort : decimal.coefficient < 10 ^ 6)
    (isNear : |decimal.number / 2 ^ exponent - mantissa| ≤ 1 / 2) :
    (sixDigits value).number = decimal.number := by
  have isFull : (2 : ℚ) ^ 52 ≤ mantissa := by
    exact_mod_cast full_of_middling isFinite isThere isAbove
  have isUnit := two_zpow_pos exponent
  have isError :
      |decimal.number - mantissa * 2 ^ exponent| ≤ 1 / 2 * 2 ^ exponent := by
    have isSplit : decimal.number - mantissa * 2 ^ exponent =
        (decimal.number / 2 ^ exponent - mantissa) * 2 ^ exponent := by
      field_simp
    rw [isSplit, abs_mul, abs_of_pos isUnit]
    exact mul_le_mul_of_nonneg_right isNear isUnit.le
  rw [sixDigits_of_finite isFinite]
  refine number_significant_of_near (numerator_pos isThere exponent)
    (scaled_pos mantissa exponent) isShort ?_
  rw [ratio_content]
  calc |decimal.number - mantissa * 2 ^ exponent| * 10 ^ (6 + 1)
      ≤ 1 / 2 * 2 ^ exponent * 10 ^ (6 + 1) :=
        mul_le_mul_of_nonneg_right isError (by norm_num)
    _ < 2 ^ 52 * 2 ^ exponent := by linarith
    _ ≤ mantissa * 2 ^ exponent := mul_le_mul_of_nonneg_right isFull isUnit.le

theorem toFloat_zero
    (negative : Bool)
    {decimal : Decimal}
    (isZero : decimal.coefficient = 0) :
    isWhole (decimal.toFloat negative) = true := by
  have isNone : decimal.toFloat negative = nearestFloat negative 0 1 := by
    refine nearestFloat_congr (timesPowerOfTen_pos Nat.one_pos _ _) Nat.one_pos ?_
      negative
    rw [Prod.mk.eta, decimal.ratio_fraction, Decimal.number, isZero]
    simp [ratio]
  rw [isNone]
  cases negative <;> decide +kernel

/-- Six digits of a double with a fraction denote it exactly when six digits can. -/
theorem inSixDigits_beq_iff
    (isPlain : IsPlainInSix value)
    (notWhole : isWhole value = false) :
    (inSixDigits value == value) = true ↔ HasSixDigits value := by
  obtain ⟨hasContent, isMiddling⟩ := isPlain
  obtain ⟨negative, mantissa, exponent, isFinite⟩ :=
    exists_finite_of_isFinite hasContent
  obtain ⟨isAbove, _⟩ := isMiddling notWhole
  obtain ⟨isThere, _⟩ := fraction_of_not_whole isFinite notWhole
  constructor
  · intro isSame
    have isValue : inSixDigits value = value := by
      obtain ⟨_, _, isValue | ⟨_, isZero⟩ | ⟨_, isZero⟩⟩ :=
        Float.beq_iff_ne_nan_and_eq.mp isSame
      · exact isValue
      · have whole : isWhole (-0) = true := by decide +kernel
        rw [isZero, whole] at notWhole
        cases notWhole
      · have whole : isWhole 0 = true := by decide +kernel
        rw [isZero, whole] at notWhole
        cases notWhole
    obtain ⟨decimal, isShort, isNumber⟩ := exists_sixDigits isFinite isThere
    refine ⟨hasSignBit value, decimal, isShort, ?_⟩
    rw [Decimal.toFloat_congr isNumber]
    exact isValue.symm
  · rintro ⟨sign, decimal, isShort, rfl⟩
    have isPositive : 0 < decimal.coefficient := by
      by_contra isZero
      rw [toFloat_zero sign (Nat.eq_zero_of_not_pos isZero)] at notWhole
      cases notWhole
    have hasNumerator :
        0 < (timesPowerOfTen decimal.coefficient 1 decimal.exponent).1 := by
      cases decimal.exponent with
      | ofNat up => exact Nat.mul_pos isPositive (Nat.pow_pos (by decide))
      | negSucc down => exact isPositive
    obtain ⟨rfl, isNear⟩ := near_of_nearestFloat hasNumerator
      (timesPowerOfTen_pos Nat.one_pos _ _) isFinite
    rw [Prod.mk.eta, decimal.ratio_fraction] at isNear
    have isNumber :=
      number_sixDigits_of_nearest isFinite isThere isAbove isShort isNear
    rw [inSixDigits, hasSignBit_of_finite isFinite, Decimal.toFloat_congr isNumber]
    exact beq_self_of_finite isFinite

/-! Six digits of doubles, whole or not. -/

theorem size_of_finite
    (isFinite : Binary.ofFloat value = .finite negative mantissa exponent) :
    size value = mantissa * 2 ^ exponent := by
  rw [size, isFinite]

theorem mantissa_eq_zero
    (isFinite : Binary.ofFloat value = .finite negative mantissa exponent)
    (isZero : size value = 0) :
    mantissa = 0 := by
  rw [size_of_finite isFinite, mul_eq_zero] at isZero
  exact_mod_cast isZero.resolve_right (two_zpow_pos exponent).ne'

/-- Only the two zeros are equal to zero. -/
theorem beq_zero_iff
    (hasContent : value.isFinite = true) :
    (value == 0) = true ↔ size value = 0 := by
  obtain ⟨negative, mantissa, exponent, isFinite⟩ :=
    exists_finite_of_isFinite hasContent
  constructor
  · intro isSame
    have isZero (negative : Bool) (value : Float)
        (isFinite : Binary.ofFloat value = .finite negative 0 (-1074)) :
        size value = 0 := by
      rw [size_of_finite isFinite, Nat.cast_zero, zero_mul]
    obtain ⟨_, _, rfl | ⟨rfl, _⟩ | ⟨rfl, _⟩⟩ :=
      Float.beq_iff_ne_nan_and_eq.mp isSame
    · exact isZero false 0 (by decide)
    · exact isZero false 0 (by decide)
    · exact isZero true (-0) (by decide)
  · intro isZero
    obtain rfl := mantissa_eq_zero isFinite isZero
    rw [eq_zero_of_finite isFinite]
    cases negative <;> decide

theorem sixDigits_of_zero
    (isFinite : Binary.ofFloat value = .finite negative 0 exponent) :
    (sixDigits value).coefficient = 0 := by
  rw [eq_zero_of_finite isFinite]
  cases negative <;> decide +kernel

/-- No decimal of at most six digits is nearer to a double than its six digits. -/
theorem isNearestInSix_sixDigits
    (hasContent : value.isFinite = true) :
    IsNearestInSix value (sixDigits value).number := by
  obtain ⟨negative, mantissa, exponent, isFinite⟩ :=
    exists_finite_of_isFinite hasContent
  rcases Nat.eq_zero_or_pos mantissa with rfl | isThere
  · have isZero := sixDigits_of_zero isFinite
    have isNumber : (sixDigits value).number = 0 := by
      rw [Decimal.number, isZero]
      simp
    refine ⟨⟨sixDigits value, by rw [isZero]; decide, rfl⟩, fun other _ => ?_⟩
    rw [isNumber, size_of_finite isFinite]
    simp
  · refine ⟨exists_sixDigits isFinite isThere, fun other isShort => ?_⟩
    rw [size_of_finite isFinite, sixDigits_of_finite isFinite, ← ratio_content]
    exact dist_significant_le (numerator_pos isThere exponent)
      (scaled_pos mantissa exponent) (by decide) isShort

/-- A whole double of at most six digits is the number of its six digits. -/
theorem number_sixDigits_of_whole
    (isFinite : Binary.ofFloat value = .finite negative mantissa exponent)
    (whole : isWhole value = true)
    (isThere : 0 < mantissa)
    (isBelow : size value < 1000000) :
    (sixDigits value).number = size value := by
  obtain ⟨count, _, isContent⟩ := exists_truncate isFinite whole
  rw [size_of_finite isFinite, ← isContent] at isBelow ⊢
  have isShort : count < 10 ^ 6 := by
    have isLess : (count : ℚ) < (10 ^ 6 : Nat) := isBelow.trans_eq (by norm_num)
    exact_mod_cast isLess
  have isNumber : (⟨count, 0⟩ : Decimal).number = count := by
    rw [Decimal.number, zpow_zero, mul_one]
  have isExact :
      ratio ((scaled mantissa exponent).1, (scaled mantissa exponent).2) =
        (⟨count, 0⟩ : Decimal).number := by
    rw [ratio_content, isNumber, isContent]
  have isPositive : (0 : ℚ) < mantissa * 2 ^ exponent :=
    mul_pos (by exact_mod_cast isThere) (two_zpow_pos exponent)
  rw [sixDigits_of_finite isFinite, ← isNumber]
  refine number_significant_of_near (numerator_pos isThere exponent)
    (scaled_pos mantissa exponent) isShort ?_
  rw [isExact, sub_self, abs_zero, zero_mul, isNumber, isContent]
  exact isPositive

/-- A whole double of at most six digits is the double of its six digits. -/
theorem inSixDigits_of_whole
    (hasContent : value.isFinite = true)
    (whole : isWhole value = true)
    (isBelow : size value < 1000000) :
    inSixDigits value = value := by
  obtain ⟨negative, mantissa, exponent, isFinite⟩ :=
    exists_finite_of_isFinite hasContent
  rw [inSixDigits, hasSignBit_of_finite isFinite]
  rcases Nat.eq_zero_or_pos mantissa with rfl | isThere
  · rw [eq_zero_of_finite isFinite]
    cases negative <;> decide +kernel
  · have isNumber := number_sixDigits_of_whole isFinite whole isThere isBelow
    rw [size_of_finite isFinite] at isNumber
    have isPositive : 0 < (sixDigits value).number := by
      rw [isNumber]
      exact mul_pos (by exact_mod_cast isThere) (two_zpow_pos exponent)
    exact toFloat_of_roundsTo isFinite isPositive (roundsTo_self isNumber)

/-- Six digits denote every whole double of at most six digits. -/
theorem hasSixDigits_of_whole
    (hasContent : value.isFinite = true)
    (whole : isWhole value = true)
    (isBelow : size value < 1000000) :
    HasSixDigits value := by
  obtain ⟨decimal, isShort, isNumber⟩ :=
    (isNearestInSix_sixDigits hasContent).isShort
  refine ⟨hasSignBit value, decimal, isShort, ?_⟩
  rw [Decimal.toFloat_congr isNumber]
  exact (inSixDigits_of_whole hasContent whole isBelow).symm

/--
A double other than zero with at most six digits before the point is written
without an exponent.
-/
theorem middling_of_lt
    (isPlain : IsPlainInSix value)
    (isBelow : size value < 1000000)
    (notZero : size value ≠ 0) :
    1 / 10000 ≤ (sixDigits value).number ∧ (sixDigits value).number < 1000000 := by
  cases whole : isWhole value with
  | false => exact isPlain.isMiddling whole
  | true =>
      obtain ⟨negative, mantissa, exponent, isFinite⟩ :=
        exists_finite_of_isFinite isPlain.isFinite
      have isThere : 0 < mantissa := by
        refine Nat.pos_of_ne_zero fun isZero => notZero ?_
        rw [size_of_finite isFinite, isZero, Nat.cast_zero, zero_mul]
      obtain ⟨count, _, isContent⟩ := exists_truncate isFinite whole
      have isOne : (1 : ℚ) ≤ size value := by
        rw [size_of_finite isFinite, ← isContent] at notZero ⊢
        exact_mod_cast Nat.one_le_iff_ne_zero.mpr (by exact_mod_cast notZero)
      rw [number_sixDigits_of_whole isFinite whole isThere isBelow]
      exact ⟨le_trans (by norm_num) isOne, isBelow⟩

end Finite

end DesignTokens.Number
