import DesignTokens.Proofs.Number.PlainNumerals
import DesignTokens.Proofs.Number.Texts

namespace DesignTokens.Number

/-!
# Numbers written as plain numerals

A whole number, and a finite double with a fixed number of places, are written
as plain numerals.  In six digits a finite double is one too, unless it is so
large or so small that an exponent stands behind the numeral.
-/

open DesignTokens.Text

theorem isDecimal_of_isDigit
    {c : Char}
    (isDigit : c.isDigit = true) :
    isDecimal c = true := by
  have isNear : c.toNat < 128 :=
    Nat.lt_of_le_of_lt (Char.isDigit_iff_toNat.mp isDigit).2 (by decide)
  rw [isDecimal, digitValue?, if_pos isNear, if_pos isDigit]
  rfl

/-- The words for doubles that are not finite. -/
def infiniteWords : List String :=
  ["inf", "-inf", "nan"]

theorem infiniteWords_cases
    {chars : List Char}
    (isWord : String.ofList chars ∈ infiniteWords) :
    chars = ['i', 'n', 'f'] ∨ chars = ['-', 'i', 'n', 'f'] ∨
      chars = ['n', 'a', 'n'] := by
  simp only [infiniteWords, List.mem_cons, List.not_mem_nil, or_false,
    ← String.toList_inj, String.toList_ofList] at isWord
  exact isWord

/-- A double is written by the layout of its size, or as a word. -/
theorem floatText_cases
    (finite : Nat → Int → List Char)
    (value : Float) :
    (∃ negative mantissa exponent,
        Binary.ofFloat value = .finite negative mantissa exponent ∧
          floatText finite value = withSign negative (finite mantissa exponent)) ∨
      floatText finite value ∈ infiniteWords := by
  unfold floatText
  split
  · rename_i negative mantissa exponent isFinite
    exact .inl ⟨negative, mantissa, exponent, isFinite, rfl⟩
  · rename_i negative _
    cases negative
    · exact .inr (by decide)
    · exact .inr (by decide)
  · exact .inr (by decide)

/-- A text is a plain numeral with digits before the point. -/
def IsPlainText (chars : List Char) : Prop :=
  ∃ numeral : PlainNumeral, numeral.whole ≠ [] ∧ chars = numeral.text

theorem isPlainText_withSign
    (negative : Bool)
    {whole : List Char}
    (fraction : List Char)
    (isThere : whole ≠ [])
    (wholeDigits : ∀ c ∈ whole, c.isDigit = true)
    (fractionDigits : ∀ c ∈ fraction, c.isDigit = true) :
    IsPlainText (withSign negative (whole ++ fractionText fraction)).toList := by
  refine ⟨⟨negative, whole, fraction,
    fun c isMember => isDecimal_of_isDigit (wholeDigits c isMember),
    fun c isMember => isDecimal_of_isDigit (fractionDigits c isMember),
    .inl isThere⟩, isThere, ?_⟩
  rw [toList_withSign]
  rfl

theorem isDigit_of_mem_zeros
    {count : Nat}
    {c : Char}
    (isMember : c ∈ List.replicate count '0') :
    c.isDigit = true := by
  rw [List.eq_of_mem_replicate isMember]
  rfl

theorem isPlainText_intText
    (whole : Int) :
    IsPlainText (intText whole).toList := by
  have isPlain := isPlainText_withSign (decide (whole < 0)) []
    (Decimal.digits_ne_nil whole.natAbs) (fun _ => Decimal.isDigit_of_mem_digits)
    (List.forall_mem_nil _)
  rwa [fractionText_nil, List.append_nil] at isPlain

/-- A finite double with a fixed number of places is a plain numeral. -/
theorem isPlainText_fixedText
    {value : Float}
    {negative : Bool}
    {mantissa : Nat}
    {exponent : Int}
    {count : Nat}
    (isFinite : Binary.ofFloat value = .finite negative mantissa exponent)
    (hasPlaces : 0 < count) :
    IsPlainText (fixedText count value).toList := by
  rw [fixedText, floatText, isFinite]
  simp only [withPoint]
  generalize places _ _ count = part
  have areDigits :
      ∀ c ∈ List.replicate (count + 1 - (Decimal.digits part).length) '0' ++
        Decimal.digits part, c.isDigit = true :=
    List.forall_mem_append.mpr
      ⟨fun _ => isDigit_of_mem_zeros, fun _ => Decimal.isDigit_of_mem_digits⟩
  have isLong : count + 1 ≤
      (List.replicate (count + 1 - (Decimal.digits part).length) '0' ++
        Decimal.digits part).length := by
    rw [List.length_append, List.length_replicate]
    omega
  generalize List.replicate _ '0' ++ Decimal.digits part = padded
    at areDigits isLong ⊢
  have hasWhole : padded.take (padded.length - count) ≠ [] := by
    rw [ne_eq, List.take_eq_nil_iff, ← List.length_eq_zero_iff]
    omega
  have hasFraction : padded.drop (padded.length - count) ≠ [] := by
    rw [ne_eq, List.drop_eq_nil_iff]
    omega
  have isPlain := isPlainText_withSign negative
    (padded.drop (padded.length - count)) hasWhole
    (fun c isMember => areDigits c (List.mem_of_mem_take isMember))
    (fun c isMember => areDigits c (List.mem_of_mem_drop isMember))
  rwa [fractionText_of_ne_nil hasFraction] at isPlain

/--
A fixed number of places of a double: a numeral, or a word for no finite number.
-/
theorem fixedText_cases
    {count : Nat}
    (hasPlaces : 0 < count)
    (value : Float) :
    IsPlainText (fixedText count value).toList ∨
      fixedText count value ∈ infiniteWords := by
  rcases floatText_cases _ value with ⟨_, _, _, isFinite, _⟩ | isWord
  · exact .inl (isPlainText_fixedText isFinite hasPlaces)
  · exact .inr isWord

/-- A text is a plain numeral with an exponent behind it. -/
def IsExponentText (chars : List Char) : Prop :=
  ∃ numeral : PlainNumeral, ∃ exponent, numeral.whole ≠ [] ∧
    chars = numeral.text ++ exponentText exponent

theorem exists_exponentText
    (exponent : Int) :
    ∃ sign digits, exponentText exponent = 'e' :: sign :: digits ∧
      (sign = '-' ∨ sign = '+') ∧
      ∀ c ∈ digits, c.isDigit = true := by
  have areDigits : ∀ c ∈ Decimal.digits exponent.natAbs, c.isDigit = true :=
    fun _ => Decimal.isDigit_of_mem_digits
  refine ⟨_, _, rfl, ?_, ?_⟩
  · split
    · exact .inl rfl
    · exact .inr rfl
  · split
    · exact List.forall_mem_cons.mpr ⟨rfl, areDigits⟩
    · exact areDigits

theorem isExponentText_withSign
    (negative : Bool)
    {whole fraction : List Char}
    (isThere : whole ≠ [])
    (wholeDigits : ∀ c ∈ whole, c.isDigit = true)
    (fractionDigits : ∀ c ∈ fraction, c.isDigit = true)
    (exponent : Int) :
    IsExponentText
      (withSign negative
        (whole ++ fractionText fraction ++ exponentText exponent)).toList := by
  obtain ⟨numeral, hasWhole, isText⟩ :=
    isPlainText_withSign negative fraction isThere wholeDigits fractionDigits
  refine ⟨numeral, exponent, hasWhole, ?_⟩
  rw [← isText, toList_withSign, toList_withSign]
  cases negative <;> rfl

section Layouts

variable {digits : List Char}

/-- Digits behind a point and any number of zeros are a plain numeral. -/
theorem isPlainText_small
    (negative : Bool)
    (count : Nat)
    (isThere : digits ≠ [])
    (areDigits : ∀ c ∈ digits, c.isDigit = true) :
    IsPlainText
      (withSign negative
        ('0' :: '.' :: (List.replicate count '0' ++ digits))).toList := by
  have isPlain := isPlainText_withSign negative (List.replicate count '0' ++ digits)
    (List.cons_ne_nil '0' []) (List.forall_mem_singleton.mpr rfl)
    (List.forall_mem_append.mpr ⟨fun _ => isDigit_of_mem_zeros, areDigits⟩)
  rwa [fractionText_of_ne_nil (by simp [isThere])] at isPlain

/--
Digits with a point behind so many of them, or zeros in place of missing ones.
-/
theorem isPlainText_cut
    (negative : Bool)
    {count : Nat}
    (hasWhole : 0 < count)
    (isThere : digits ≠ [])
    (areDigits : ∀ c ∈ digits, c.isDigit = true) :
    IsPlainText
      (withSign negative
        (digits.take count ++ List.replicate (count - digits.length) '0' ++
        fractionText (digits.drop count))).toList := by
  refine isPlainText_withSign negative (digits.drop count)
    (List.append_ne_nil_of_left_ne_nil ?_ _)
    (List.forall_mem_append.mpr
      ⟨fun c isMember => areDigits c (List.mem_of_mem_take isMember),
      fun _ => isDigit_of_mem_zeros⟩)
    (fun c isMember => areDigits c (List.mem_of_mem_drop isMember))
  rw [ne_eq, List.take_eq_nil_iff, not_or]
  exact ⟨Nat.ne_of_gt hasWhole, isThere⟩

/-- One digit, the others behind a point, and an exponent. -/
theorem isExponentText_scientific
    (negative : Bool)
    {digit : Char}
    {fraction : List Char}
    (areDigits : ∀ c ∈ digit :: fraction, c.isDigit = true)
    (exponent : Int) :
    IsExponentText
      (withSign negative
        (digit :: (fractionText fraction ++ exponentText exponent))).toList := by
  rw [List.forall_mem_cons] at areDigits
  exact isExponentText_withSign negative (List.cons_ne_nil digit [])
    (List.forall_mem_singleton.mpr areDigits.1) areDigits.2 exponent

end Layouts

/--
A decimal in six digits is a plain numeral, or one with an exponent behind it.
-/
theorem layout_general_cases
    (negative : Bool)
    (value : Decimal) :
    IsPlainText (withSign negative (layout .general value)).toList ∨
      IsExponentText (withSign negative (layout .general value)).toList := by
  have areDigits : ∀ c ∈ Decimal.digits value.coefficient, c.isDigit = true :=
    fun _ => Decimal.isDigit_of_mem_digits
  have isThere := Decimal.digits_ne_nil value.coefficient
  unfold layout
  simp only
  split
  · left
    split
    · exact isPlainText_small negative _ isThere areDigits
    · have isPlain := isPlainText_cut negative
        (show 0 < (value.leading + 1).toNat by omega) isThere areDigits
      split
      · rename_i isEmpty
        rwa [List.isEmpty_iff.mp isEmpty, fractionText_nil,
          List.append_nil] at isPlain
      · rename_i isFraction
        rwa [fractionText_of_ne_nil (by simpa using isFraction)] at isPlain
  · right
    split
    · rename_i isEmpty
      exact (isThere isEmpty).elim
    · rename_i digit isDigits
      rw [isDigits] at areDigits
      exact isExponentText_scientific negative areDigits value.leading
    · rename_i digit fraction several isDigits
      have hasFraction : fraction ≠ [] := by
        rintro rfl
        exact several rfl
      rw [isDigits] at areDigits
      have isExponent := isExponentText_scientific negative areDigits value.leading
      rwa [fractionText_of_ne_nil hasFraction] at isExponent

/--
Six digits of a double: a numeral, one with an exponent, or a word for
no finite number.
-/
theorem generalText_cases
    (value : Float) :
    IsPlainText (generalText value).toList ∨
      IsExponentText (generalText value).toList ∨
      generalText value ∈ infiniteWords := by
  unfold generalText
  rcases floatText_cases _ value with
    ⟨negative, mantissa, exponent, _, isText⟩ | isWord
  · rw [isText]
    exact (layout_general_cases negative _).imp_right .inl
  · exact .inr (.inr isWord)

end DesignTokens.Number
