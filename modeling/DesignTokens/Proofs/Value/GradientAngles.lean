import DesignTokens.Proofs.Value.GradientStops
import DesignTokens.Proofs.Value.NumberTexts

namespace DesignTokens.Gradient

/-!
# Angles of written gradients

An angle is written in six digits with its unit, and a comma stands behind it.
A plain numeral is taken from the front of such a text as the angle.  A numeral
with an exponent, and a word for a double that is not finite, are left where
they are, but no color comes of them.
-/

open DesignTokens.Text
open DesignTokens.Number (PlainNumeral IsPlainText IsExponentText IsPlainInSix size)

/-! Texts of angles. -/

/-- An angle as it is written: a plain numeral, one with an exponent, or a word. -/
def IsAngleText (chars : List Char) : Prop :=
  IsPlainText chars ∨ IsExponentText chars ∨
    String.ofList chars ∈ Number.infiniteWords

theorem not_isBlank_of_isAngleText
    {chars : List Char}
    (isText : IsAngleText chars) :
    ∃ c more, chars = c :: more ∧ isBlank c = false := by
  have ofNumeral (numeral : PlainNumeral) (behind : List Char) :
      ∃ c more, numeral.text ++ behind = c :: more ∧ isBlank c = false := by
    obtain ⟨c, more, isForm, isNumeral⟩ := numeral.exists_text_cons
    exact ⟨c, more ++ behind, by rw [isForm, List.cons_append],
      Number.not_isBlank_of_isNumeralChar isNumeral⟩
  rcases isText with ⟨numeral, _, rfl⟩ | ⟨numeral, exponent, _, rfl⟩ | isWord
  · simpa using ofNumeral numeral []
  · exact ofNumeral numeral _
  · rcases Number.infiniteWords_cases isWord with rfl | rfl | rfl
    all_goals exact ⟨_, _, rfl, by decide⟩

/-- A missing angle and one that was read are both written. -/
theorem exists_angleText
    {gradient : Gradient}
    (hasAngle : gradient.angle = .null ∨ ∃ angle, gradient.angle = .float angle) :
    ∃ chars, gradient.angleText = .ok (String.ofList chars) ∧
      IsAngleText chars := by
  have zero : IsAngleText "0".toList := .inl (Number.isPlainText_intText 0)
  unfold angleText
  split
  · rcases hasAngle with isNull | ⟨angle, isFloat⟩
    · rename_i isTruthy
      rw [isNull] at isTruthy
      cases isTruthy
    · refine ⟨(Number.generalText angle).toList, ?_, ?_⟩
      · rw [isFloat, String.ofList_toList]
        rfl
      · rw [IsAngleText, String.ofList_toList]
        exact Number.generalText_cases angle
  · exact ⟨_, by rw [String.ofList_toList], zero⟩

/--
An angle of at most six digits before the point is written as a numeral
of its six digits.
-/
theorem exists_angleText_of_lt
    {gradient : Gradient}
    {angle : Float}
    (isFloat : gradient.angle = .float angle)
    (isPlain : IsPlainInSix angle)
    (isBelow : size angle < 1000000) :
    ∃ numeral : PlainNumeral,
      gradient.angleText = .ok (String.ofList numeral.text) ∧
        IsReread angle numeral.value := by
  have hasContent := isPlain.isFinite
  obtain ⟨_, _, _, isFinite⟩ := Number.exists_finite_of_isFinite hasContent
  have isTruthy : (Wire.float angle).isTruthy = !(angle == 0) := rfl
  by_cases isZero : size angle = 0
  · have isSame := (Number.beq_zero_iff hasContent).mpr isZero
    refine ⟨.ofDigit '0' rfl, ?_, fun _ => ?_, fun notWhole => ?_⟩
    · rw [angleText, isFloat, isTruthy, isSame]
      rfl
    · rw [BEq.comm]
      exact isSame
    · have isNone := Number.mantissa_eq_zero isFinite isZero
      have isThere := (Number.fraction_of_not_whole isFinite notWhole).1
      exact (isThere.ne' isNone).elim
  · have isThere : (angle == 0) = false := by
      rw [Bool.eq_false_iff]
      exact mt (Number.beq_zero_iff hasContent).mp isZero
    obtain ⟨isAbove, notHigh⟩ := Number.middling_of_lt isPlain isBelow isZero
    obtain ⟨numeral, _, _, isText, isValue⟩ :=
      Number.exists_general_numeral hasContent isAbove notHigh
    refine ⟨numeral, ?_, fun whole => ?_, fun _ => isValue⟩
    · rw [angleText, isFloat, isTruthy, isThere, ← isText, String.ofList_toList]
      rfl
    · rw [isValue, Number.inSixDigits_of_whole hasContent whole isBelow]
      exact Number.beq_self_of_finite isFinite

/-- A numeral is a plain text, so it is no text with an exponent, and no word. -/
theorem isPlainText_of_isAngleText
    {numeral : PlainNumeral}
    (isText : IsAngleText numeral.text) :
    IsPlainText numeral.text := by
  rcases isText with isPlain | ⟨other, exponent, _, isForm⟩ | isWord
  · exact isPlain
  · have isThere : 'e' ∈ numeral.text := by
      obtain ⟨sign, digits, isExponent, _⟩ := Number.exists_exponentText exponent
      rw [isForm, isExponent]
      exact List.mem_append_right _ List.mem_cons_self
    exact (PlainNumeral.not_mem_text (by decide) isThere).elim
  · have isThere : 'n' ∈ numeral.text := by
      rcases Number.infiniteWords_cases isWord with isForm | isForm | isForm
      all_goals
        rw [isForm]
        decide
    exact (PlainNumeral.not_mem_text (by decide) isThere).elim

/-! Taking angles. -/

/-- What stands behind the number of an angle. -/
def behindAngle (stops : List StopText) : List Char :=
  'd' :: 'e' :: 'g' :: ',' :: ' ' :: printed stops

section Angles

variable {stops : List StopText}

theorem skipBlank_printed
    (isThere : stops ≠ []) :
    skipBlank (' ' :: printed stops) = printed stops := by
  obtain ⟨stop, rest, rfl⟩ := List.exists_cons_of_ne_nil isThere
  obtain ⟨more, isForm⟩ := stop.color.exists_text_cons
  rw [printed_cons, StopText.text, isForm]
  rfl

/-- An angle that is a plain numeral is taken. -/
theorem takeAngle_plain
    {numeral : PlainNumeral}
    (startsWhole : numeral.whole ≠ [])
    (isThere : stops ≠ []) :
    takeAngle (numeral.text ++ behindAngle stops) =
      (.float numeral.value, printed stops) := by
  have ends : Number.EndsNumeral (behindAngle stops) :=
    Number.endsNumeral_cons (by decide) _
  have isNumber := numeral.scanWholeFirst?_text startsWhole ends
  have isUnit : angleUnits.findSome? (fun unit =>
      (afterText? unit.1 (behindAngle stops)).map (fun after => (unit.2, after))) =
        some (fun value => value, ',' :: ' ' :: printed stops) := rfl
  have isComma : scanComma? (',' :: ' ' :: printed stops) = some (printed stops) :=
    congrArg some (skipBlank_printed isThere)
  have isAngle : scanAngle? (numeral.text ++ behindAngle stops) =
      some (numeral.value, printed stops) := by
    unfold scanAngle?
    simp only [isNumber, Option.bind_eq_bind, Option.bind_some, isUnit, isComma,
      Option.pure_def]
    rfl
  rw [takeAngle, isAngle]

/--
Where no angle is taken, and no direction begins, the content is left as it is.
-/
theorem takeAngle_of_none
    {c : Char}
    {rest : List Char}
    (noAngle : scanAngle? (c :: rest) = none)
    (noDirection : c ≠ 't') :
    takeAngle (c :: rest) = (.null, c :: rest) := by
  have noTo : scanDirection? (c :: rest) = none := by
    have isNone : afterText? "to" (c :: rest) = none := by
      change after? ['t', 'o'] (c :: rest) = none
      rw [after?, if_neg noDirection]
    unfold scanDirection?
    rw [isNone]
    rfl
  rw [takeAngle, noAngle, noTo]

/-- An angle with an exponent is not taken: its exponent is no unit. -/
theorem scanAngle?_exponent
    {numeral : PlainNumeral}
    (startsWhole : numeral.whole ≠ [])
    (rest : List Char) :
    scanAngle? (numeral.text ++ 'e' :: rest) = none := by
  have ends : Number.EndsNumeral ('e' :: rest) :=
    Number.endsNumeral_cons (by decide) _
  have isNumber := numeral.scanWholeFirst?_text startsWhole ends
  have noUnit : angleUnits.findSome? (fun unit =>
      (afterText? unit.1 ('e' :: rest)).map (fun after => (unit.2, after))) =
        none := rfl
  have noComma : scanComma? ('e' :: rest) = none := rfl
  unfold scanAngle?
  simp only [isNumber, Option.bind_eq_bind, Option.bind_some, noUnit, noComma,
    Option.bind_none]

/-- An angle that is no numeral is left where it is. -/
theorem takeAngle_other
    {chars : List Char}
    (isOther : IsExponentText chars ∨ String.ofList chars ∈ Number.infiniteWords) :
    takeAngle (chars ++ behindAngle stops) =
      (.null, chars ++ behindAngle stops) := by
  rcases isOther with ⟨numeral, exponent, startsWhole, rfl⟩ | isWord
  · obtain ⟨c, more, isForm, isNumeral⟩ := numeral.exists_text_cons
    have noDirection : c ≠ 't' := by
      intro isLetter
      rw [isLetter] at isNumeral
      cases isNumeral
    have noAngle :
        scanAngle? (numeral.text ++ Number.exponentText exponent ++
          behindAngle stops) = none := by
      rw [Number.exponentText, List.append_assoc, List.cons_append]
      exact scanAngle?_exponent startsWhole _
    rw [isForm, List.cons_append, List.cons_append] at noAngle ⊢
    exact takeAngle_of_none noAngle noDirection
  · rcases Number.infiniteWords_cases isWord with rfl | rfl | rfl
    · exact takeAngle_of_none rfl (by decide)
    · exact takeAngle_of_none rfl (by decide)
    · exact takeAngle_of_none rfl (by decide)

/-! Colors behind an angle. -/

theorem holdsColors_comma
    (isThere : stops ≠ []) :
    HoldsColors (foundIn scanStop? (',' :: ' ' :: printed stops)) stops.length := by
  have areMarks : ∀ c ∈ [',', ' '], isMark c = true :=
    List.all_eq_true.mp (by decide)
  have isPassedOver : foundIn scanStop? (',' :: ' ' :: printed stops) =
      foundIn scanStop? (printed stops) :=
    foundIn_marks areMarks _
  rw [isPassedOver]
  exact holdsColors_printed isThere

/-- A word in front of the comma behind an angle is no color. -/
theorem holdsColors_word
    {word : List Char}
    (isPlain : isPlainWord word = true)
    (noColor : Color.parse (String.ofList word) = .ok none)
    (isThere : stops ≠ []) :
    HoldsColors (foundIn scanStop? (word ++ ',' :: ' ' :: printed stops))
      stops.length := by
  rw [foundIn_word isPlain rfl]
  exact .word noColor (holdsColors_comma isThere)

/-- The unit of an angle is a word that is no color. -/
theorem holdsColors_behindAngle
    (isThere : stops ≠ []) :
    HoldsColors (foundIn scanStop? (behindAngle stops)) stops.length := by
  have isPlain : isPlainWord ['d', 'e', 'g'] = true := by decide
  exact holdsColors_word isPlain rfl isThere

/-- The exponent of an angle begins with a word that is no color. -/
theorem holdsColors_exponent
    (exponent : Int)
    (isThere : stops ≠ []) :
    HoldsColors
      (foundIn scanStop? (Number.exponentText exponent ++ behindAngle stops))
      stops.length := by
  obtain ⟨sign, digits, isForm, isSign, areDigits⟩ :=
    Number.exists_exponentText exponent
  have noColor : Color.parse (String.ofList ['e']) = .ok none := by rfl
  have areMarks : ∀ c ∈ sign :: digits, isMark c = true := by
    refine List.forall_mem_cons.mpr
      ⟨?_, fun c isMember =>
        isMark_of_isNumeralChar
          (Number.isNumeralChar_of_isDecimal
            (Number.isDecimal_of_isDigit (areDigits c isMember)))⟩
    rcases isSign with rfl | rfl <;> decide
  have isWord :
      foundIn scanStop? (Number.exponentText exponent ++ behindAngle stops) =
        (['e'], none) ::
          foundIn scanStop? (sign :: digits ++ behindAngle stops) := by
    rw [isForm]
    change foundIn scanStop? (['e'] ++ sign :: (digits ++ behindAngle stops)) = _
    rcases isSign with rfl | rfl
    all_goals exact foundIn_word (by decide) rfl _
  rw [isWord, foundIn_marks areMarks]
  exact .word noColor (holdsColors_behindAngle isThere)

/-- An angle that is left where it is brings no color with it. -/
theorem holdsColors_other
    {chars : List Char}
    (isOther : IsExponentText chars ∨ String.ofList chars ∈ Number.infiniteWords)
    (isThere : stops ≠ []) :
    HoldsColors (foundIn scanStop? (chars ++ behindAngle stops)) stops.length := by
  rcases isOther with ⟨numeral, exponent, _, rfl⟩ | isWord
  · have areMarks : ∀ c ∈ numeral.text, isMark c = true := fun c isMember =>
      isMark_of_isNumeralChar (PlainNumeral.isNumeralChar_of_mem_text isMember)
    rw [List.append_assoc, foundIn_marks areMarks]
    exact holdsColors_exponent exponent isThere
  · have infinite :
        HoldsColors (foundIn scanStop? (['i', 'n', 'f'] ++ behindAngle stops))
          stops.length := by
      have isPlain : isPlainWord ['i', 'n', 'f', 'd', 'e', 'g'] = true := by decide
      exact holdsColors_word isPlain rfl isThere
    have undefined :
        HoldsColors (foundIn scanStop? (['n', 'a', 'n'] ++ behindAngle stops))
          stops.length := by
      have isPlain : isPlainWord ['n', 'a', 'n', 'd', 'e', 'g'] = true := by decide
      exact holdsColors_word isPlain rfl isThere
    rcases Number.infiniteWords_cases isWord with rfl | rfl | rfl
    · exact infinite
    · rw [List.cons_append, foundIn_cons (scanStop?_mark (by decide) _)]
      exact infinite
    · exact undefined

end Angles

end DesignTokens.Gradient
