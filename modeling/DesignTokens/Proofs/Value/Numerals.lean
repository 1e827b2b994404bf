import DesignTokens.Proofs.Text.Digits
import DesignTokens.Value.Dimension
import DesignTokens.Value.Timing

namespace DesignTokens

/-!
# Numerals at the front of values

A scanner of numbers takes digits, points and a minus sign, and at least one
digit among them.  A length, a time span and a bare number differ in what stands
behind the numeral.
-/

open DesignTokens.Text

namespace Number

/-- Whether a character can stand in a numeral. -/
def isNumeralChar (c : Char) : Bool :=
  isDecimal c || c == '-' || c == '.'

/-- Digits, points and minus signs with at least one digit among them. -/
structure Numeral (chars : List Char) : Prop where
  isNumeralChar :
    ∀ c ∈ chars, isNumeralChar c = true
  hasDecimal :
    ∃ c ∈ chars, isDecimal c = true

theorem isDigitLike_of_isDecimal
    {c : Char}
    (decimal : isDecimal c = true) :
    isDigitLike c = true := by
  rw [isDigitLike, decimal, Bool.true_or]

theorem isNumeralChar_of_isDecimal
    {c : Char}
    (decimal : isDecimal c = true) :
    isNumeralChar c = true := by
  rw [Number.isNumeralChar, decimal, Bool.true_or, Bool.true_or]

theorem isNumeralChar_cases
    {c : Char}
    (inNumeral : isNumeralChar c = true) :
    isDigitLike c = true ∨ c = '-' ∨ c = '.' := by
  simp only [Number.isNumeralChar, Bool.or_eq_true, beq_iff_eq] at inNumeral
  rcases inNumeral with (decimal | isMinus) | isPoint
  · exact .inl (isDigitLike_of_isDecimal decimal)
  · exact .inr (.inl isMinus)
  · exact .inr (.inr isPoint)

/-- The digit-like characters of a numeral are its digits. -/
theorem isDecimal_of_isDigitLike
    {c : Char}
    (inNumeral : isNumeralChar c = true)
    (isDigit : isDigitLike c = true) :
    isDecimal c = true := by
  have noMinus : c ≠ '-' := ne_of_isDigitLike isDigit (by decide)
  have noPoint : c ≠ '.' := ne_of_isDigitLike isDigit (by decide)
  simpa [Number.isNumeralChar, noMinus, noPoint] using inNumeral

/-- Lowercasing leaves a character of a numeral as it is. -/
theorem isSettled_of_isNumeralChar
    {c : Char}
    (inNumeral : isNumeralChar c = true) :
    IsSettled c := by
  rcases isNumeralChar_cases inNumeral with isDigit | rfl | rfl
  · exact isSettled_of_isDigitLike isDigit
  · decide
  · decide

theorem not_isBlank_of_isNumeralChar
    {c : Char}
    (inNumeral : isNumeralChar c = true) :
    isBlank c = false := by
  rcases isNumeralChar_cases inNumeral with isDigit | rfl | rfl
  · exact not_isBlank_of_isDigitLike isDigit
  · decide
  · decide

/-- A numeral in front of digits, points and minus signs is one with them. -/
theorem Numeral.append
    {first second : List Char}
    (numeral : Numeral first)
    (more : ∀ c ∈ second, Number.isNumeralChar c = true) :
    Numeral (first ++ second) := by
  obtain ⟨c, isChar, decimal⟩ := numeral.hasDecimal
  refine ⟨fun d isMember => ?_, c, List.mem_append_left _ isChar, decimal⟩
  rcases List.mem_append.mp isMember with inFirst | inSecond
  · exact numeral.isNumeralChar d inFirst
  · exact more d inSecond

/-- Behind a minus sign or a point a numeral stays one. -/
theorem Numeral.cons
    {mark : Char}
    {chars : List Char}
    (numeral : Numeral chars)
    (inNumeral : Number.isNumeralChar mark = true) :
    Numeral (mark :: chars) := by
  obtain ⟨c, isChar, decimal⟩ := numeral.hasDecimal
  exact ⟨List.forall_mem_cons.mpr ⟨inNumeral, numeral.isNumeralChar⟩,
    c, List.mem_cons_of_mem _ isChar, decimal⟩

theorem numeral_scanDigits
    {chars : List Char}
    (isThere : (scanDigits chars).1.isEmpty = false) :
    Numeral (scanDigits chars).1 := by
  have decimals : ∀ c ∈ (scanDigits chars).1, isDecimal c = true :=
    fun c isTaken => List.mem_takeWhile_imp isTaken
  obtain ⟨first, rest, isForm⟩ :=
    List.exists_cons_of_ne_nil (List.isEmpty_eq_false_iff.mp isThere)
  have isFirst : first ∈ (scanDigits chars).1 := isForm ▸ List.mem_cons_self
  exact ⟨fun c isTaken => isNumeralChar_of_isDecimal (decimals c isTaken),
    first, isFirst, decimals first isFirst⟩

theorem scanDigits_append
    (chars : List Char) :
    (scanDigits chars).1 ++ (scanDigits chars).2 = chars :=
  List.takeWhile_append_dropWhile

/-- A fraction is nothing at all, or a point and the digits behind it. -/
theorem scanFraction_cases
    (chars : List Char) :
    ((scanFraction chars).1.isEmpty = true ∧ (scanFraction chars).2 = chars) ∨
      (Numeral (scanFraction chars).1 ∧
        chars = '.' :: (scanFraction chars).1 ++ (scanFraction chars).2) := by
  unfold scanFraction
  split
  · rename_i rest
    simp only
    split
    · exact .inl ⟨rfl, rfl⟩
    · rename_i isThere
      refine .inr ⟨numeral_scanDigits (by simpa using isThere), ?_⟩
      rw [List.cons_append, scanDigits_append]
  · exact .inl ⟨rfl, rfl⟩

theorem isNumeralChar_point :
    isNumeralChar '.' = true := by
  decide

/-- What is taken as an unsigned number is a numeral. -/
theorem exists_numeral_of_scanUnsigned?
    {chars rest : List Char}
    {literal : Literal}
    (scanned : scanUnsigned? chars = some (literal, rest)) :
    ∃ numeral, Numeral numeral ∧ chars = numeral ++ rest := by
  unfold scanUnsigned? at scanned
  simp only at scanned
  split at scanned
  · cases scanned
  · rename_i isThere
    obtain ⟨_, rfl⟩ := Prod.mk.inj (Option.some.inj scanned)
    have whole := numeral_scanDigits (by simpa using isThere)
    have joined := scanDigits_append chars
    rcases scanFraction_cases (scanDigits chars).2 with
      ⟨_, isRest⟩ | ⟨fraction, isRest⟩
    · exact ⟨_, whole, by rw [isRest, joined]⟩
    · refine ⟨_, whole.append (fraction.cons isNumeralChar_point).isNumeralChar, ?_⟩
      rw [List.append_assoc, ← isRest, joined]

/-- What is taken as a number is a numeral. -/
theorem exists_numeral_of_scanNumber?
    {chars rest : List Char}
    {literal : Literal}
    (scanned : scanNumber? chars = some (literal, rest)) :
    ∃ numeral, Numeral numeral ∧ chars = numeral ++ rest := by
  have unsigned :
      ∃ numeral, Numeral numeral ∧ (scanMinus chars).2 = numeral ++ rest := by
    unfold scanNumber? at scanned
    simp only at scanned
    split at scanned
    · rename_i isUnsigned
      obtain ⟨_, rfl⟩ := Prod.mk.inj (Option.some.inj scanned)
      exact exists_numeral_of_scanUnsigned? isUnsigned
    · split at scanned
      · cases scanned
      · rename_i isThere
        obtain ⟨_, rfl⟩ := Prod.mk.inj (Option.some.inj scanned)
        rcases scanFraction_cases (scanMinus chars).2 with
          ⟨isEmpty, _⟩ | ⟨fraction, isRest⟩
        · exact (isThere isEmpty).elim
        · exact ⟨_, fraction.cons isNumeralChar_point, isRest⟩
  obtain ⟨numeral, isNumeral, isRest⟩ := unsigned
  unfold scanMinus at isRest
  split at isRest
  · exact ⟨'-' :: numeral, isNumeral.cons (by decide),
      congrArg (List.cons '-') isRest⟩
  · exact ⟨numeral, isNumeral, isRest⟩

end Number

/-- A bare number is a numeral. -/
theorem numeral_of_isBareNumber
    {chars : List Char}
    (isNumber : isBareNumber chars = true) :
    Number.Numeral chars := by
  unfold isBareNumber at isNumber
  split at isNumber
  · rename_i rest scanned
    obtain ⟨numeral, isNumeral, rfl⟩ := Number.exists_numeral_of_scanNumber? scanned
    rw [List.isEmpty_iff] at isNumber
    rwa [isNumber, List.append_nil]
  · cases isNumber

namespace Duration

/-- A time span is a numeral and a unit of time. -/
theorem exists_numeral_of_isExplicit
    {chars : List Char}
    (explicit : isExplicit chars = true) :
    ∃ numeral unit, Number.Numeral numeral ∧ unit ∈ [['m', 's'], ['s']] ∧
      chars = numeral ++ unit := by
  unfold isExplicit at explicit
  split at explicit
  · rename_i value unit scanned
    unfold scan? at scanned
    split at scanned
    · cases scanned
    · rename_i isScanned
      obtain ⟨numeral, isNumeral, isForm⟩ :=
        Number.exists_numeral_of_scanUnsigned? isScanned
      exact ⟨numeral, _, isNumeral, by simp, isForm⟩
    · rename_i isScanned
      obtain ⟨numeral, isNumeral, isForm⟩ :=
        Number.exists_numeral_of_scanUnsigned? isScanned
      exact ⟨numeral, _, isNumeral, by simp, isForm⟩
    · cases scanned
  · cases explicit

/-- A time span holds a digit. -/
theorem exists_decimal_of_isExplicit
    {chars : List Char}
    (explicit : isExplicit chars = true) :
    ∃ c ∈ chars, isDecimal c = true := by
  obtain ⟨numeral, unit, isNumeral, _, rfl⟩ := exists_numeral_of_isExplicit explicit
  obtain ⟨c, isChar, decimal⟩ := isNumeral.hasDecimal
  exact ⟨c, List.mem_append_left _ isChar, decimal⟩

theorem mem_of_isExplicit
    {chars : List Char}
    (explicit : isExplicit chars = true) :
    's' ∈ chars := by
  have inUnit : ∀ unit ∈ [['m', 's'], ['s']], 's' ∈ unit := by decide
  obtain ⟨numeral, unit, _, isUnit, rfl⟩ := exists_numeral_of_isExplicit explicit
  exact List.mem_append_right _ (inUnit unit isUnit)

end Duration

namespace Dimension

/-- Every character of a unit counts as a letter of a known unit. -/
theorem exists_letter_of_isUnit
    {chars : List Char}
    (unit : isUnit chars = true)
    {c : Char}
    (isChar : c ∈ chars) :
    ∃ known ∈ units, ∃ letter ∈ known.toList, sameLetter c letter = true := by
  obtain ⟨known, isKnown, isSame⟩ := List.any_eq_true.mp unit
  obtain ⟨sameLength, sameLetters⟩ := Bool.and_eq_true_iff.mp isSame
  rw [beq_iff_eq] at sameLength
  have inZip : c ∈ (chars.zip known.toList).map Prod.fst := by
    rwa [List.map_fst_zip sameLength.le]
  obtain ⟨⟨_, letter⟩, isPair, rfl⟩ := List.mem_map.mp inZip
  exact ⟨known, isKnown, letter, (List.of_mem_zip isPair).2,
    List.all_eq_true.mp sameLetters _ isPair⟩

/--
What is taken as a length is a numeral, with no unit, or with the text
behind it as its unit.
-/
theorem exists_numeral_of_scan?
    {chars : List Char}
    {written : Written}
    (isTaken : scan? chars = some written) :
    ∃ numeral rest, Number.Numeral numeral ∧ chars = numeral ++ rest ∧
      (written.unit? = none ∨
        (written.unit? = some (skipBlank rest) ∧
          isUnit (skipBlank rest) = true)) := by
  unfold scan? at isTaken
  split at isTaken
  · cases isTaken
  · rename_i literal rest scanned
    obtain ⟨numeral, isNumeral, isForm⟩ :=
      Number.exists_numeral_of_scanNumber? scanned
    refine ⟨numeral, rest, isNumeral, isForm, ?_⟩
    split at isTaken
    · cases isTaken
      exact .inl rfl
    · split at isTaken
      · rename_i isUnit
        cases isTaken
        exact .inr ⟨rfl, isUnit⟩
      · cases isTaken

/-- A length is a numeral and a unit of length, with blanks between the two. -/
theorem exists_numeral_of_hasUnit
    {chars : List Char}
    (isLength : hasUnit chars = true) :
    ∃ numeral rest, Number.Numeral numeral ∧ isUnit (skipBlank rest) = true ∧
      chars = numeral ++ rest := by
  unfold hasUnit at isLength
  split at isLength
  · rename_i written isTaken
    obtain ⟨numeral, rest, isNumeral, isForm, noUnit | ⟨_, isUnit⟩⟩ :=
      exists_numeral_of_scan? isTaken
    · simp [noUnit] at isLength
    · exact ⟨numeral, rest, isNumeral, isUnit, isForm⟩
  · cases isLength

/-- What is read as a length holds a digit. -/
theorem exists_decimal_of_parse
    {text defaultUnit : String}
    {dimension : Dimension}
    (isRead : parse text defaultUnit = some dimension) :
    ∃ c ∈ trimChars text.toList, isDecimal c = true := by
  obtain ⟨written, isTaken, _⟩ := Option.map_eq_some_iff.mp isRead
  obtain ⟨numeral, rest, isNumeral, isForm, _⟩ := exists_numeral_of_scan? isTaken
  obtain ⟨c, isChar, decimal⟩ := isNumeral.hasDecimal
  exact ⟨c, isForm ▸ List.mem_append_left _ isChar, decimal⟩

/-- A text that is written as a length begins with a character of numerals. -/
theorem isNumeralChar_of_isWritten
    {c : Char}
    {more : List Char}
    (written : isWritten (c :: more) = true) :
    Number.isNumeralChar c = true := by
  obtain ⟨taken, isTaken⟩ := Option.isSome_iff_exists.mp written
  obtain ⟨numeral, rest, isNumeral, isForm, _⟩ := exists_numeral_of_scan? isTaken
  obtain ⟨digit, isDigit, _⟩ := isNumeral.hasDecimal
  obtain ⟨first, others, rfl⟩ :=
    List.exists_cons_of_ne_nil (List.ne_nil_of_mem isDigit)
  obtain ⟨rfl, _⟩ := List.cons.inj isForm
  exact isNumeral.isNumeralChar c List.mem_cons_self

end Dimension

end DesignTokens
