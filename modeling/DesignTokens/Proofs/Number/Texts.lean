import DesignTokens.Number.Layout

namespace DesignTokens.Number

/-!
# Texts of numbers

A whole number is written in digits, with a sign where it is negative, and no
two have one text.  The text of a finite double is numeric too, and it always
shows a point or an exponent, so that it is the text of no whole number.
-/

/-- Digits, signs, points and exponents. -/
def IsNumeric (c : Char) : Prop :=
  c.isDigit = true ∨ c = '-' ∨ c = '+' ∨ c = '.' ∨ c = 'e'

instance (c : Char) : Decidable (IsNumeric c) :=
  inferInstanceAs (Decidable (_ ∨ _))

namespace Decimal

theorem digits_ne_nil
    (value : Nat) :
    digits value ≠ [] :=
  Nat.toDigits_ne_nil

theorem isDigit_of_mem_digits
    {c : Char}
    {value : Nat}
    (isMember : c ∈ digits value) :
    c.isDigit = true :=
  Nat.isDigit_of_mem_toDigits (by decide) (by decide) isMember

/-- Digits tell natural numbers apart. -/
theorem digits_injective :
    Function.Injective digits := by
  intro left right sameDigits
  rw [← @Nat.ofDigitChars_ten_toDigits left, ← @Nat.ofDigitChars_ten_toDigits right]
  exact congrArg (fun chars => Nat.ofDigitChars 10 chars 0) sameDigits

end Decimal

theorem toList_withSign
    (negative : Bool)
    (chars : List Char) :
    (withSign negative chars).toList = if negative then '-' :: chars else chars :=
  String.toList_ofList

/-- The characters of a signed text are a sign and those of the text. -/
theorem eq_or_mem_of_mem_withSign
    {negative : Bool}
    {chars : List Char}
    {c : Char}
    (isMember : c ∈ (withSign negative chars).toList) :
    c = '-' ∨ c ∈ chars := by
  rw [toList_withSign] at isMember
  cases negative with
  | true => exact List.mem_cons.mp isMember
  | false => exact .inr isMember

theorem mem_withSign
    {negative : Bool}
    {chars : List Char}
    {c : Char}
    (isMember : c ∈ chars) :
    c ∈ (withSign negative chars).toList := by
  rw [toList_withSign]
  cases negative with
  | true => exact List.mem_cons_of_mem _ isMember
  | false => exact isMember

/-- A sign can be told from the digits behind it. -/
theorem withSign_inj
    {negative other : Bool}
    {left right : List Char}
    (leftDigits : ∀ c ∈ left, c.isDigit = true)
    (rightDigits : ∀ c ∈ right, c.isDigit = true)
    (same : withSign negative left = withSign other right) :
    negative = other ∧ left = right := by
  have sameChars := congrArg String.toList same
  rw [toList_withSign, toList_withSign] at sameChars
  have noDigit : ('-').isDigit = false := rfl
  cases negative with
  | true =>
      cases other with
      | true => exact ⟨rfl, List.tail_eq_of_cons_eq sameChars⟩
      | false =>
          have isMember : '-' ∈ right := by
            rw [← show '-' :: left = right from sameChars]
            exact List.mem_cons_self
          exact absurd (rightDigits '-' isMember) (by simp [noDigit])
  | false =>
      cases other with
      | true =>
          have isMember : '-' ∈ left := by
            rw [show left = '-' :: right from sameChars]
            exact List.mem_cons_self
          exact absurd (leftDigits '-' isMember) (by simp [noDigit])
      | false => exact ⟨rfl, sameChars⟩

/-- The text of a whole number tells it from all others. -/
theorem intText_injective :
    Function.Injective intText := by
  intro left right same
  obtain ⟨sameSign, sameDigits⟩ :=
    withSign_inj (fun _ => Decimal.isDigit_of_mem_digits)
      (fun _ => Decimal.isDigit_of_mem_digits)
      same
  have sameSize := Decimal.digits_injective sameDigits
  have sameSide : left < 0 ↔ right < 0 := decide_eq_decide.mp sameSign
  omega

theorem isDigit_or_sign_of_mem_intText
    {whole : Int}
    {c : Char}
    (isMember : c ∈ (intText whole).toList) :
    c.isDigit = true ∨ c = '-' := by
  rcases eq_or_mem_of_mem_withSign isMember with isSign | isDigit
  · exact .inr isSign
  · exact .inl (Decimal.isDigit_of_mem_digits isDigit)

theorem intText_ne_empty
    (whole : Int) :
    (intText whole).toList ≠ [] := by
  obtain ⟨first, _, isDigits⟩ :=
    List.exists_cons_of_ne_nil (Decimal.digits_ne_nil whole.natAbs)
  refine List.ne_nil_of_mem (a := first) (mem_withSign ?_)
  rw [isDigits]
  exact List.mem_cons_self

section Layouts

variable {value : Decimal}

theorem numeric_digits
    (value : Nat) :
    ∀ c ∈ Decimal.digits value, IsNumeric c :=
  fun _ isDigit => .inl (Decimal.isDigit_of_mem_digits isDigit)

theorem numeric_zeros
    (count : Nat) :
    ∀ c ∈ List.replicate count '0', IsNumeric c := by
  intro c isZero
  obtain rfl := List.eq_of_mem_replicate isZero
  exact .inl rfl

theorem numeric_exponentText
    (exponent : Int) :
    ∀ c ∈ exponentText exponent, IsNumeric c := by
  have size := numeric_digits exponent.natAbs
  have mark : IsNumeric 'e' := .inr (.inr (.inr (.inr rfl)))
  have sign : IsNumeric (if exponent < 0 then '-' else '+') := by
    split
    · exact .inr (.inl rfl)
    · exact .inr (.inr (.inl rfl))
  unfold exponentText
  simp only [List.forall_mem_cons]
  refine ⟨mark, sign, ?_⟩
  split
  · exact List.forall_mem_cons.mpr ⟨.inl rfl, size⟩
  · exact size

/-- A decimal is laid out in numeric characters. -/
theorem numeric_layout
    (style : Style) :
    ∀ c ∈ layout style value, IsNumeric c := by
  have digits := numeric_digits value.coefficient
  have zero : IsNumeric '0' := .inl rfl
  have point : IsNumeric '.' := .inr (.inr (.inr (.inl rfl)))
  have exponent := numeric_exponentText value.leading
  have front :
      ∀ count, ∀ c ∈ (Decimal.digits value.coefficient).take count, IsNumeric c :=
    fun _ c isMember => digits c (List.mem_of_mem_take isMember)
  have behind :
      ∀ count, ∀ c ∈ (Decimal.digits value.coefficient).drop count, IsNumeric c :=
    fun _ c isMember => digits c (List.mem_of_mem_drop isMember)
  unfold layout
  simp only
  split
  · split
    · simp only [List.forall_mem_cons, List.forall_mem_append]
      exact ⟨zero, point, numeric_zeros _, digits⟩
    · split
      · split
        · simp only [List.forall_mem_append, List.forall_mem_cons]
          exact ⟨⟨front _, numeric_zeros _⟩, point, zero, List.forall_mem_nil _⟩
        · simp only [List.forall_mem_append]
          exact ⟨front _, numeric_zeros _⟩
      · simp only [List.forall_mem_append, List.forall_mem_cons]
        exact ⟨⟨front _, numeric_zeros _⟩, point, behind _⟩
  · split
    · exact List.forall_mem_nil _
    · rename_i isDigits
      rw [isDigits, List.forall_mem_singleton] at digits
      exact List.forall_mem_cons.mpr ⟨digits, exponent⟩
    · rename_i isDigits
      rw [isDigits, List.forall_mem_cons] at digits
      simp only [List.forall_mem_cons, List.forall_mem_append]
      exact ⟨digits.1, point, digits.2, exponent⟩

/-- Where whole numbers keep a point, a point or an exponent is always shown. -/
theorem exists_mark_of_keepsPoint
    {style : Style}
    (keepsPoint : style.keepsPoint = true) :
    ∃ mark ∈ layout style value, mark = '.' ∨ mark = 'e' := by
  unfold layout
  simp only
  split
  · split
    · exact ⟨'.', by simp, .inl rfl⟩
    · split
      · exact ⟨'.', by simp, .inl rfl⟩
      · exact ⟨'.', by simp, .inl rfl⟩
  · split
    · rename_i isNil
      exact absurd isNil (Decimal.digits_ne_nil _)
    · exact ⟨'e', by simp [exponentText], .inr rfl⟩
    · exact ⟨'.', by simp, .inl rfl⟩

end Layouts

section Doubles

variable {value : Float} {negative : Bool} {mantissa : Nat} {exponent : Int}

theorem plainText_of_finite
    (isFinite : Binary.ofFloat value = .finite negative mantissa exponent) :
    plainText value =
      withSign negative (layout .stored (shortest mantissa exponent)) := by
  rw [plainText, floatText, isFinite]

theorem numeric_plainText
    (isFinite : Binary.ofFloat value = .finite negative mantissa exponent) :
    ∀ c ∈ (plainText value).toList, IsNumeric c := by
  intro c isMember
  rw [plainText_of_finite isFinite] at isMember
  rcases eq_or_mem_of_mem_withSign isMember with isSign | inLayout
  · exact .inr (.inl isSign)
  · exact numeric_layout .stored c inLayout

theorem exists_mark_of_finite
    (isFinite : Binary.ofFloat value = .finite negative mantissa exponent) :
    ∃ mark ∈ (plainText value).toList, mark = '.' ∨ mark = 'e' := by
  have marked : ∃ mark ∈ layout .stored (shortest mantissa exponent), mark = '.' ∨
      mark = 'e' :=
    exists_mark_of_keepsPoint rfl
  obtain ⟨mark, inLayout, isMark⟩ := marked
  rw [plainText_of_finite isFinite]
  exact ⟨mark, mem_withSign inLayout, isMark⟩

end Doubles

end DesignTokens.Number
