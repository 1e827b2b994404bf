import DesignTokens.Proofs.Number.ReadBack
import DesignTokens.Proofs.Reading
import DesignTokens.Proofs.Value.Vocabularies
import DesignTokens.Value.Timing

namespace DesignTokens

/-!
# Numbers of values that are written and read again

Inside a value a whole number is written in full and any other in six digits, so
that a number comes back as itself or as what is nearest to its six digits.  A
unit behind the number comes back as it is.
-/

open DesignTokens.Number DesignTokens.Text

/-- What a double comes back as after it was written in six digits. -/
structure IsReread (value again : Float) : Prop where
  ofWhole : isWhole value = true → (again == value) = true
  ofFraction : isWhole value = false → again = inSixDigits value

/-- A double comes back when it is whole or six digits denote it, and only then. -/
theorem IsReread.beq_iff
    {value again : Float}
    (isReread : IsReread value again)
    (isPlain : IsPlainInSix value) :
    (again == value) = true ↔ isWhole value = true ∨ HasSixDigits value := by
  cases whole : isWhole value with
  | true => exact iff_of_true (isReread.ofWhole whole) (.inl rfl)
  | false =>
      rw [isReread.ofFraction whole, inSixDigits_beq_iff isPlain whole]
      simp

/-- Of six digits before the point at most, all whole doubles come back. -/
theorem IsReread.beq_iff_of_lt
    {value again : Float}
    (isReread : IsReread value again)
    (isPlain : IsPlainInSix value)
    (isBelow : size value < 1000000) :
    (again == value) = true ↔ HasSixDigits value := by
  rw [isReread.beq_iff isPlain]
  exact or_iff_right_of_imp fun whole =>
    hasSixDigits_of_whole isPlain.isFinite whole isBelow

/--
A number without an exponent is written as a numeral, which is read as what
comes back of it.
-/
theorem exists_numberText
    {value : Float}
    (isPlain : IsPlainInSix value) :
    ∃ numeral : PlainNumeral, numeral.whole ≠ [] ∧
      (Wire.float value).numberText = .ok (String.ofList numeral.text) ∧
      (hasSignBit value = false → numeral.negative = false) ∧
        IsReread value numeral.value := by
  obtain ⟨negative, mantissa, exponent, isFinite⟩ :=
    exists_finite_of_isFinite isPlain.isFinite
  cases whole : isWhole value with
  | true =>
      obtain ⟨truncated, numeral, isTruncated, hasWhole, isText, isSign, isSame⟩ :=
        exists_whole_numeral isFinite whole
      refine ⟨numeral, hasWhole, ?_, ?_, fun _ => isSame, fun notWhole => ?_⟩
      · rw [← isText, String.ofList_toList]
        simp only [Wire.numberText, Wire.toFloat, Wire.number?, Wire.wholeText,
          ok_bind, whole, if_true, isTruncated]
        rfl
      · rw [hasSignBit_of_finite isFinite]
        exact isSign
      · cases whole.symm.trans notWhole
  | false =>
      obtain ⟨isAbove, isBelow⟩ := isPlain.isMiddling whole
      obtain ⟨numeral, isSign, hasWhole, isText, isValue⟩ :=
        exists_general_numeral isPlain.isFinite isAbove isBelow
      refine ⟨numeral, hasWhole, ?_, fun isPositive => isSign.trans isPositive,
        fun isThere => ?_, fun _ => isValue⟩
      · rw [← isText, String.ofList_toList]
        simp only [Wire.numberText, Wire.toFloat, Wire.number?, Wire.generalText,
          ok_bind, whole, Bool.false_eq_true, if_false]
        rfl
      · cases whole.symm.trans isThere

/--
A number without an exponent is written in full as a numeral, which is
read as the number.
-/
theorem exists_shortText
    {value : Float}
    (isPlain : IsPlainInFull value) :
    ∃ numeral : PlainNumeral, numeral.whole ≠ [] ∧
      (Wire.float value).shortText = String.ofList numeral.text ∧
      (numeral.value == value) = true := by
  obtain ⟨negative, mantissa, exponent, isFinite⟩ :=
    exists_finite_of_isFinite isPlain.isFinite
  cases whole : isWhole value with
  | true =>
      obtain ⟨truncated, numeral, isTruncated, hasWhole, isText, _, isSame⟩ :=
        exists_whole_numeral isFinite whole
      refine ⟨numeral, hasWhole, ?_, isSame⟩
      rw [← isText, String.ofList_toList]
      simp only [Wire.shortText, whole, isTruncated]
  | false =>
      obtain ⟨numeral, hasWhole, isText, isValue⟩ :=
        exists_plain_numeral isPlain whole
      refine ⟨numeral, hasWhole, ?_, ?_⟩
      · rw [← isText, String.ofList_toList]
        simp only [Wire.shortText, whole]
        rfl
      · rw [isValue]
        exact beq_self_of_finite isFinite

/-- The doubles among document values. -/
def doubles (values : List Wire) : List Float :=
  values.filterMap fun value =>
    match value with
    | .float number => some number
    | _ => none

/-! Numerals with units. -/

namespace Dimension

/-- The units that a length can come with when pixels are meant without one. -/
def readUnits : List String :=
  units ++ strays units

/-- Whether a unit can stand behind a numeral and is read as it is. -/
def isKept (unit : String) : Bool :=
  isUnit unit.toList && lower unit == unit &&
    unit.toList.head?.any (fun c => !isNumeralChar c && !isBlank c) &&
      unit.toList.getLast?.any (fun c => !isBlank c)

theorem isKept_readUnits :
    ∀ unit ∈ readUnits, isKept unit = true := by
  decide

/-- A length that was read is a number with a unit that is read as it is. -/
theorem exists_of_parse
    {text : String}
    {dimension : Dimension}
    (isRead : parse text "px" = some dimension) :
    ∃ value, ∃ unit ∈ readUnits, dimension = ofFloat value unit := by
  obtain ⟨unit, hasUnit, isUnit⟩ := unit_of_parse isRead
  obtain ⟨written, _, rfl⟩ := Option.map_eq_some_iff.mp isRead
  refine ⟨written.number, unit, ?_, by rw [ofFloat, ofFloat, ← hasUnit]; rfl⟩
  rcases isUnit with rfl | isListed | ⟨isStray, _⟩
  · decide
  · exact List.mem_append_left _ isListed
  · exact List.mem_append_right _ isStray

/-- A numeral with a unit behind it is read as such. -/
theorem parse_numeral
    (numeral : PlainNumeral)
    {unit : String}
    (isListed : unit ∈ readUnits) :
    parse (String.ofList numeral.text ++ unit) "px" =
      some (ofFloat numeral.value unit) := by
  have kept := isKept_readUnits unit isListed
  simp only [isKept, Bool.and_eq_true, beq_iff_eq] at kept
  obtain ⟨⟨⟨isUnit, isLower⟩, isFront⟩, isBack⟩ := kept
  obtain ⟨first, isFirst, isOther⟩ := (Option.any_eq_true _ _).mp isFront
  obtain ⟨last, isLast, lastInk⟩ := (Option.any_eq_true _ _).mp isBack
  rw [Bool.and_eq_true, Bool.not_eq_true', Bool.not_eq_true'] at isOther
  have hasUnit : unit.toList ≠ [] := by
    intro isEmpty
    rw [isEmpty] at isFirst
    cases isFirst
  have ends : EndsNumeral unit.toList := by
    rintro c isHead
    obtain rfl := Option.some.inj (isFirst.symm.trans isHead)
    exact isOther.1
  have noBlank : skipBlank unit.toList = unit.toList := by
    obtain ⟨c, rest, isForm⟩ := List.exists_cons_of_ne_nil hasUnit
    rw [isForm, List.head?_cons] at isFirst
    obtain rfl := Option.some.inj isFirst
    rw [isForm, skipBlank, List.dropWhile_cons_of_neg (by simp [isOther.2])]
  have trimmed : Trimmed (numeral.text ++ unit.toList) := by
    obtain ⟨c, more, isForm, isNumeral⟩ := numeral.exists_text_cons
    refine ⟨fun front isHead => ?_, fun back isEnd => ?_⟩
    · rw [isForm, List.cons_append, List.head?_cons] at isHead
      obtain rfl := Option.some.inj isHead
      exact not_isBlank_of_isNumeralChar isNumeral
    · rw [List.getLast?_append_of_ne_nil _ hasUnit, isLast] at isEnd
      obtain rfl := Option.some.inj isEnd
      simpa using lastInk
  have isScanned : scan? (numeral.text ++ unit.toList) =
      some ⟨numeral.value, some unit.toList⟩ := by
    unfold scan?
    simp only [numeral.scanNumber?_text ends, noBlank, isUnit, if_true]
    rfl
  rw [parse, String.toList_append, String.toList_ofList, trimmed.trimChars_eq,
    isScanned]
  simp only [Option.map_some, String.ofList_toList, isLower]

end Dimension

namespace Duration

/-- A time span that was read is a positive number with a unit of time. -/
theorem exists_of_ofChars?
    {chars : List Char}
    {duration : Duration}
    (isRead : ofChars? chars = some duration) :
    ∃ value unit, duration = ⟨.float value, .str unit⟩ ∧ unit ∈ units ∧
      hasSignBit value = false := by
  obtain ⟨⟨value, unit?⟩, isScanned, rfl⟩ := Option.map_eq_some_iff.mp isRead
  have noSign {rest : List Char} {literal : Literal}
      (isNumber : scanUnsigned? chars = some (literal, rest)) :
      hasSignBit literal.toFloat = false := by
    rw [hasSignBit_toFloat]
    unfold scanUnsigned? at isNumber
    simp only at isNumber
    split at isNumber
    · cases isNumber
    · cases isNumber
      rfl
  unfold scan? at isScanned
  split at isScanned
  · rename_i isNumber
    cases isScanned
    exact ⟨_, _, rfl, List.mem_cons_self, noSign isNumber⟩
  · rename_i isNumber
    cases isScanned
    exact ⟨_, _, rfl, List.mem_cons_self, noSign isNumber⟩
  · rename_i isNumber
    cases isScanned
    exact ⟨_, _, rfl, List.mem_cons_of_mem _ List.mem_cons_self, noSign isNumber⟩
  · cases isScanned

section Written

variable {numeral : PlainNumeral} {unit : String}

/-- A numeral without a sign and a unit of time behind it are taken as such. -/
theorem scan?_numeral
    (notNegative : numeral.negative = false)
    (hasWhole : numeral.whole ≠ [])
    (isListed : unit ∈ units) :
    scan? (numeral.text ++ unit.toList) = some (numeral.value, some unit) := by
  have isUnsigned : numeral.text = numeral.unsignedText := by
    rw [PlainNumeral.text, notNegative, if_neg Bool.false_ne_true]
  have isLiteral : (⟨false, numeral.whole, numeral.fraction, 0⟩ : Literal) =
      numeral.literal := by
    rw [PlainNumeral.literal, notNegative]
  have isTaken (rest : List Char) (ends : EndsNumeral rest) :
      scanUnsigned? (numeral.text ++ rest) = some (numeral.literal, rest) := by
    rw [isUnsigned, PlainNumeral.scanUnsigned?_unsignedText hasWhole ends,
      isLiteral]
  simp only [units, List.mem_cons, List.not_mem_nil, or_false] at isListed
  rcases isListed with rfl | rfl
  · have isEnd := isTaken ['m', 's'] (endsNumeral_cons (by decide) _)
    rw [scan?, show "ms".toList = ['m', 's'] by decide, isEnd]
    rfl
  · have isEnd := isTaken ['s'] (endsNumeral_cons (by decide) _)
    rw [scan?, show "s".toList = ['s'] by decide, isEnd]
    rfl

theorem isExplicit_numeral
    (notNegative : numeral.negative = false)
    (hasWhole : numeral.whole ≠ [])
    (isListed : unit ∈ units) :
    isExplicit (numeral.text ++ unit.toList) = true := by
  rw [isExplicit, scan?_numeral notNegative hasWhole isListed]

theorem parse_numeral
    (notNegative : numeral.negative = false)
    (hasWhole : numeral.whole ≠ [])
    (isListed : unit ∈ units) :
    parse (String.ofList numeral.text ++ unit) =
      some ⟨.float numeral.value, .str unit⟩ := by
  have noBlank : ∀ c ∈ numeral.text ++ unit.toList, isBlank c = false := by
    have inUnits :
        ∀ unit ∈ units, unit.toList.all (fun c => !isBlank c) = true := by
      decide
    refine List.forall_mem_append.mpr ⟨fun c isMember =>
      not_isBlank_of_isNumeralChar
        (PlainNumeral.isNumeralChar_of_mem_text isMember), ?_⟩
    intro c isMember
    simpa using List.all_eq_true.mp (inUnits unit isListed) c isMember
  rw [parse, String.toList_append, String.toList_ofList,
    (trimmed_of_not_blank noBlank).trimChars_eq, ofChars?,
    scan?_numeral notNegative hasWhole isListed]
  rfl

end Written

end Duration

/-- A numeral is read as a bare number. -/
theorem bareNumber?_numeral
    (numeral : PlainNumeral) :
    bareNumber? (String.ofList numeral.text) = some numeral.value := by
  have noBlank : ∀ c ∈ numeral.text, isBlank c = false :=
    fun c isMember =>
      not_isBlank_of_isNumeralChar (PlainNumeral.isNumeralChar_of_mem_text isMember)
  have isTaken := numeral.scanNumber?_text endsNumeral_nil
  rw [List.append_nil] at isTaken
  rw [bareNumber?, String.toList_ofList,
    (trimmed_of_not_blank noBlank).trimChars_eq, isTaken]
  rfl

end DesignTokens
