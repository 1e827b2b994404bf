import DesignTokens.Proofs.Number.Decimals
import DesignTokens.Proofs.Number.DoubleBits
import DesignTokens.Proofs.Number.Printed

namespace DesignTokens.Number

/-!
# Values of numerals

The double that a plain numeral is read as is the nearest one of the number that
its digits denote.  Only that number counts, not how many zeros are written.
-/

open DesignTokens.Text

/-! Values of digits. -/

theorem digitsValue_append
    (front back : List Char) :
    digitsValue (front ++ back) =
      digitsValue front * 10 ^ back.length + digitsValue back := by
  induction back using List.reverseRecOn with
  | nil => simp [digitsValue]
  | append_singleton back c inductionHypothesis =>
      have isStep (digits : List Char) : digitsValue (digits ++ [c]) =
          10 * digitsValue digits + (digitValue? c).getD 0 := by
        rw [digitsValue, List.foldl_append]
        rfl
      rw [← List.append_assoc, isStep, isStep, inductionHypothesis,
        List.length_append, List.length_singleton]
      ring

theorem digitsValue_singleton
    (c : Char) :
    digitsValue [c] = (digitValue? c).getD 0 := by
  simp [digitsValue]

theorem digitsValue_cons
    (c : Char)
    (digits : List Char) :
    digitsValue (c :: digits) =
      (digitValue? c).getD 0 * 10 ^ digits.length + digitsValue digits := by
  rw [← List.singleton_append, digitsValue_append, digitsValue_singleton]

theorem digitValue?_lt
    {c : Char}
    {value : Nat}
    (isDigit : digitValue? c = some value) :
    value < 10 := by
  unfold digitValue? at isDigit
  split at isDigit
  · split at isDigit
    · rename_i isAscii
      have bounds : 48 ≤ c.toNat ∧ c.toNat ≤ 57 := Char.isDigit_iff_toNat.mp isAscii
      obtain rfl := Option.some.inj isDigit
      omega
    · cases isDigit
  · obtain ⟨start, isFound, rfl⟩ := Option.map_eq_some_iff.mp isDigit
    have bounds : start ≤ c.toNat ∧ c.toNat < start + 10 := by
      simpa using List.find?_some isFound
    omega

theorem getD_digitValue?_lt
    (c : Char) :
    (digitValue? c).getD 0 < 10 := by
  cases isDigit : digitValue? c with
  | none => decide
  | some value => exact digitValue?_lt isDigit

/-- Digits denote less than the next power of ten. -/
theorem digitsValue_lt
    (digits : List Char) :
    digitsValue digits < 10 ^ digits.length := by
  induction digits with
  | nil => decide
  | cons c digits inductionHypothesis =>
      have isDigit := getD_digitValue?_lt c
      have isBound :
          (digitValue? c).getD 0 * 10 ^ digits.length ≤ 9 * 10 ^ digits.length :=
        Nat.mul_le_mul_right _ (by omega)
      rw [digitsValue_cons, List.length_cons, Nat.pow_succ]
      omega

/-- Zeros in front do not count. -/
theorem digitsValue_dropZeros
    (digits : List Char) :
    digitsValue (dropZeros digits) = digitsValue digits := by
  induction digits with
  | nil => rfl
  | cons c digits inductionHypothesis =>
      unfold dropZeros at *
      by_cases isZero : digitValue? c = some 0
      · rw [List.dropWhile_cons_of_pos (by simp [isZero]), inductionHypothesis,
          digitsValue_cons, isZero]
        simp
      · rw [List.dropWhile_cons_of_neg (by simpa using isZero)]

/--
Without zeros in front digits denote no less than the power of ten
of their number.
-/
theorem le_digitsValue_dropZeros
    {digits : List Char}
    (areDigits : ∀ c ∈ digits, isDecimal c = true)
    (isThere : dropZeros digits ≠ []) :
    10 ^ ((dropZeros digits).length - 1) ≤ digitsValue (dropZeros digits) := by
  obtain ⟨c, rest, isForm⟩ := List.exists_cons_of_ne_nil isThere
  have notZero : (digitValue? c == some 0) = false := by
    have isHead :=
      List.head?_dropWhile_not (fun c => digitValue? c == some 0) digits
    unfold dropZeros at isForm
    rwa [isForm] at isHead
  have isDigit : isDecimal c = true :=
    areDigits c ((List.dropWhile_suffix _).subset (isForm ▸ List.mem_cons_self))
  obtain ⟨value, isValue⟩ := Option.isSome_iff_exists.mp isDigit
  have isPositive : 0 < value := by
    rw [isValue] at notZero
    exact Nat.pos_of_ne_zero (by simpa using notZero)
  rw [isForm, digitsValue_cons, isValue, List.length_cons, Nat.add_sub_cancel]
  exact Nat.le_add_right_of_le (Nat.le_mul_of_pos_left _ isPositive)

/-- The digits of a natural number denote it. -/
theorem digitsValue_digits
    (value : Nat) :
    digitsValue (Decimal.digits value) = value := by
  have isSame (digits : List Char) (areDigits : ∀ c ∈ digits, c.isDigit = true)
      (start : Nat) :
          digits.foldl (fun value c => 10 * value + (digitValue? c).getD 0) start =
            Nat.ofDigitChars 10 digits start := by
    induction digits generalizing start with
    | nil => rfl
    | cons c digits inductionHypothesis =>
        rw [List.forall_mem_cons] at areDigits
        have isNear : c.toNat < 128 :=
          Nat.lt_of_le_of_lt (Char.isDigit_iff_toNat.mp areDigits.1).2 (by decide)
        rw [List.foldl_cons, inductionHypothesis areDigits.2, Nat.ofDigitChars_cons,
          digitValue?, if_pos isNear, if_pos areDigits.1]
        rfl
  rw [digitsValue, isSame _ (fun _ => Decimal.isDigit_of_mem_digits)]
  exact Nat.ofDigitChars_ten_toDigits

theorem digitsValue_zeros
    (count : Nat) :
    digitsValue (List.replicate count '0') = 0 := by
  induction count with
  | zero => rfl
  | succ count inductionHypothesis =>
      rw [List.replicate_succ, digitsValue_cons, inductionHypothesis]
      simp [digitValue?]

/-! Values of numerals. -/

/-- The double that a numeral is read as has the sign of the numeral. -/
theorem hasSignBit_toFloat
    (literal : Literal) :
    hasSignBit literal.toFloat = literal.negative := by
  unfold Literal.toFloat
  simp only
  split
  · exact hasSignBit_nearestFloat _ _ _
  · split
    · exact hasSignBit_nearestFloat _ _ _
    · split <;> exact hasSignBit_nearestFloat _ _ _

namespace PlainNumeral

/-- The number that a numeral denotes, its sign aside. -/
def number (numeral : PlainNumeral) : ℚ :=
  digitsValue (numeral.whole ++ numeral.fraction) / 10 ^ numeral.fraction.length

/-- Numbers that are neither too small nor too large to be rounded to a double. -/
structure IsModerate (number : ℚ) : Prop where
  notSmall : number = 0 ∨ (10 : ℚ) ^ (-330 : Int) ≤ number
  notLarge : number < 10 ^ (310 : Int)

/-- The digits that count, with their power of ten, denote the number. -/
theorem number_eq
    (numeral : PlainNumeral) :
    numeral.number = digitsValue (dropZeros (numeral.whole ++ numeral.fraction)) *
      10 ^ (-Int.ofNat numeral.fraction.length) := by
  rw [number, digitsValue_dropZeros, zpow_neg, ten_zpow_ofNat, div_eq_mul_inv]
  push_cast
  rfl

/-- The place of the first digit that counts tells the size of the number. -/
theorem number_bounds
    (numeral : PlainNumeral)
    (isThere : dropZeros (numeral.whole ++ numeral.fraction) ≠ []) :
    (10 : ℚ) ^ (Int.ofNat (dropZeros (numeral.whole ++ numeral.fraction)).length -
        Int.ofNat numeral.fraction.length - 1) ≤ numeral.number ∧
      numeral.number <
        10 ^ (Int.ofNat (dropZeros (numeral.whole ++ numeral.fraction)).length -
        Int.ofNat numeral.fraction.length) := by
  have areDigits : ∀ c ∈ numeral.whole ++ numeral.fraction, isDecimal c = true :=
    List.forall_mem_append.mpr ⟨numeral.wholeDigits, numeral.fractionDigits⟩
  have isLow := le_digitsValue_dropZeros areDigits isThere
  have isHigh := digitsValue_lt (dropZeros (numeral.whole ++ numeral.fraction))
  have hasLength := List.length_pos_of_ne_nil isThere
  rw [number_eq]
  generalize dropZeros (numeral.whole ++ numeral.fraction) = digits at *
  have isPower := ten_zpow_pos (-Int.ofNat numeral.fraction.length)
  constructor
  · rw [show Int.ofNat digits.length - Int.ofNat numeral.fraction.length - 1 =
        Int.ofNat (digits.length - 1) + -Int.ofNat numeral.fraction.length by
      simp only [Int.ofNat_eq_natCast]
      omega, ten_zpow_add, ten_zpow_ofNat]
    exact mul_le_mul_of_nonneg_right (by exact_mod_cast isLow) isPower.le
  · rw [sub_eq_add_neg, ten_zpow_add, ten_zpow_ofNat]
    exact mul_lt_mul_of_pos_right (by exact_mod_cast isHigh) isPower

/-- A numeral is read as the double nearest to the number that it denotes. -/
theorem value_eq_nearestFloat
    (numeral : PlainNumeral)
    (isModerate : IsModerate numeral.number)
    {numerator denominator : Nat}
    (isPositive : 0 < denominator)
    (isSame : ratio (numerator, denominator) = numeral.number) :
    numeral.value = nearestFloat numeral.negative numerator denominator := by
  have isForm := numeral.number_eq
  have bounds := numeral.number_bounds
  unfold value literal Literal.toFloat
  simp only [zero_sub]
  generalize dropZeros (numeral.whole ++ numeral.fraction) = digits at *
  split
  · rename_i isNone
    refine nearestFloat_congr Nat.one_pos isPositive ?_ _
    have isZero : digits = [] := by
      by_contra isThere
      obtain ⟨isLow, isHigh⟩ := bounds isThere
      have isSmall :
          Int.ofNat digits.length + -Int.ofNat numeral.fraction.length < -330 :=
        isNone.resolve_left (by simpa using isThere)
      rcases isModerate.notSmall with isZero | isLarge
      · exact absurd isZero (lt_of_lt_of_le (ten_zpow_pos _) isLow).ne'
      · have isLess := ten_zpow_lt_iff.mp (isLarge.trans_lt isHigh)
        omega
    rw [isSame, isForm, isZero]
    simp [ratio, digitsValue]
  · rename_i isSome
    obtain ⟨isThere, notSmall⟩ := not_or.mp isSome
    split
    · rename_i isLarge
      have isLow := (bounds (by simpa using isThere)).1
      have isLess := ten_zpow_lt_iff.mp (isLow.trans_lt isModerate.notLarge)
      omega
    · -- The denominator is the power of ten of the digits behind the point, or one
      -- without any.
      cases hasLength : numeral.fraction.length with
      | zero =>
          refine nearestFloat_congr Nat.one_pos isPositive ?_ _
          rw [isSame, isForm, hasLength]
          simp [ratio, powerOfTen]
      | succ count =>
          refine nearestFloat_congr (Nat.pow_pos (by decide)) isPositive ?_ _
          rw [isSame, isForm, hasLength, zpow_neg, ten_zpow_ofNat, ← div_eq_mul_inv]
          rfl

end PlainNumeral

end DesignTokens.Number
