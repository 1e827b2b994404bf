import DesignTokens.Proofs.Value.AnimationWords

namespace DesignTokens

/-!
# Written parts of animations

The parts of an animation are written as texts with a blank between them.  A time
span is one word, which is a time span again or fits nowhere.  A curve is several
words, which fit nowhere either, so that they do not matter where the curve is not
found again.
-/

open DesignTokens.Text

/-! Numbers and units. -/

/-- Whether a character can stand in the text of a double or in a unit of time. -/
def isSpanChar (c : Char) : Bool :=
  Number.isNumeralChar c || ['e', '+', 'i', 'n', 'f', 'a', 'm', 's'].contains c

theorem not_of_isSpanChar
    {c : Char}
    (isSpan : isSpanChar c = true) :
    isBlank c = false ∧ c ∉ CubicBezier.marks ∧ c ≠ 'c' := by
  have letters : ['e', '+', 'i', 'n', 'f', 'a', 'm', 's'].all (fun c =>
      !isBlank c && !CubicBezier.marks.contains c && c != 'c') = true := by
    decide
  have others : ('c' :: CubicBezier.marks).all (fun c => !Number.isNumeralChar c) =
      true := by
    decide
  rcases Bool.or_eq_true_iff.mp isSpan with isNumeral | isLetter
  · have noOther (other : Char) (isListed : other ∈ 'c' :: CubicBezier.marks) :
        c ≠ other := by
      rintro rfl
      have notNumeral := List.all_eq_true.mp others c isListed
      rw [isNumeral] at notNumeral
      cases notNumeral
    exact ⟨Number.not_isBlank_of_isNumeralChar isNumeral, fun isMark =>
      noOther c (List.mem_cons_of_mem _ isMark) rfl, noOther 'c' List.mem_cons_self⟩
  · have isFar := List.all_eq_true.mp letters c (List.contains_iff_mem.mp isLetter)
    simpa [and_assoc] using isFar

/--
A double inside a value is written in characters of numerals, of exponents
and of two words.
-/
theorem exists_doubleText
    (value : Float) :
    ∃ chars, (Wire.float value).numberText = .ok (String.ofList chars) ∧
      chars ≠ [] ∧
      ∀ c ∈ chars, isSpanChar c = true := by
  have ofNumeral (numeral : Number.PlainNumeral) :
      ∀ c ∈ numeral.text, isSpanChar c = true := by
    intro c isMember
    rw [isSpanChar, Number.PlainNumeral.isNumeralChar_of_mem_text isMember]
    rfl
  cases whole : Number.isWhole value with
  | true =>
      have isFinite : ∃ negative mantissa exponent,
          Number.Binary.ofFloat value = .finite negative mantissa exponent := by
        unfold Number.isWhole at whole
        split at whole
        · exact ⟨_, _, _, ‹_›⟩
        · cases whole
      obtain ⟨negative, mantissa, exponent, isFinite⟩ := isFinite
      obtain ⟨truncated, numeral, isTruncated, _, isText, _, _⟩ :=
        Number.exists_whole_numeral isFinite whole
      refine ⟨numeral.text, ?_, numeral.text_ne_nil, ofNumeral numeral⟩
      rw [← isText, String.ofList_toList]
      simp only [Wire.numberText, Wire.toFloat, Wire.number?, Wire.wholeText,
        ok_bind, whole, if_true, isTruncated]
      rfl
  | false =>
      have isText : (Wire.float value).numberText =
          .ok (Number.generalText value) := by
        simp only [Wire.numberText, Wire.toFloat, Wire.number?, Wire.generalText,
          ok_bind, whole, Bool.false_eq_true, if_false]
        rfl
      refine ⟨(Number.generalText value).toList,
        by rw [String.ofList_toList, isText], ?_⟩
      rcases Number.generalText_cases value with ⟨numeral, _, isNumeral⟩ |
          ⟨numeral, exponent, _, isScientific⟩ | isWord
      · rw [isNumeral]
        exact ⟨numeral.text_ne_nil, ofNumeral numeral⟩
      · obtain ⟨sign, digits, isForm, isSign, areDigits⟩ :=
          Number.exists_exponentText exponent
        rw [isScientific, isForm]
        refine ⟨by simp, List.forall_mem_append.mpr ⟨ofNumeral numeral, ?_⟩⟩
        refine List.forall_mem_cons.mpr
          ⟨by decide, List.forall_mem_cons.mpr ⟨?_, ?_⟩⟩
        · rcases isSign with rfl | rfl <;> decide
        · intro c isMember
          rw [isSpanChar, Number.isNumeralChar_of_isDecimal
            (Number.isDecimal_of_isDigit (areDigits c isMember))]
          rfl
      · have words : Number.infiniteWords.all (fun word =>
            !word.toList.isEmpty && word.toList.all isSpanChar) = true := by
          decide
        have isFar := List.all_eq_true.mp words _ isWord
        simpa using isFar

namespace Animation

/-! Words that fill no slot. -/

/-- The words of all the vocabularies. -/
def vocabulary : List String :=
  slotWords ++ Timing.keywords

/--
A word that fills no slot, wherever it stands, and is the name only
if there is none.
-/
def IsIdle (chars : List Char) : Prop :=
  FitsNowhere chars ∧ String.ofList chars ∉ Timing.keywords

theorem isIdle_of_not_mem
    {chars : List Char}
    (notSpan : Duration.isExplicit chars = false)
    {c : Char}
    (isChar : c ∈ chars)
    (notDigit : isDigitLike c = false)
    (notListed : String.ofList chars ∉ vocabulary) :
    IsIdle chars := by
  rw [vocabulary, List.mem_append, not_or] at notListed
  refine ⟨⟨notSpan, ?_, notListed.1⟩, notListed.2⟩
  cases isCount : allDigitLike chars with
  | false => rfl
  | true =>
      have areDigits := List.all_eq_true.mp (Bool.and_eq_true_iff.mp isCount).2
      cases (areDigits c isChar).symm.trans notDigit

/-- A word that ends with a mark of a curve fills no slot. -/
theorem isIdle_of_mark
    (front : List Char)
    {mark : Char}
    (isMark : mark ∈ CubicBezier.marks) :
    IsIdle (front ++ [mark]) := by
  have others :
      CubicBezier.marks.all
        (fun mark => mark != 's' && !isDigitLike mark &&
          vocabulary.all (fun word => !word.toList.contains mark)) = true := by
    decide
  have isFar := List.all_eq_true.mp others mark isMark
  simp only [Bool.and_eq_true, bne_iff_ne, Bool.not_eq_true',
    List.all_eq_true] at isFar
  obtain ⟨⟨notUnit, notDigit⟩, notInWords⟩ := isFar
  have isChar : mark ∈ front ++ [mark] := List.mem_append_right _ List.mem_cons_self
  have isLast : (front ++ [mark]).getLast? = some mark := List.getLast?_concat
  refine isIdle_of_not_mem ?_ isChar notDigit fun isListed => ?_
  · cases explicit : Duration.isExplicit (front ++ [mark]) with
    | false => rfl
    | true =>
        have isUnit := (Duration.getLast?_of_isExplicit explicit).symm.trans isLast
        exact (notUnit (Option.some.inj isUnit).symm).elim
  · have notThere := notInWords _ isListed
    rw [String.toList_ofList, List.contains_iff_mem.mpr isChar] at notThere
    cases notThere

theorem isPart_of_mem_vocabulary
    {word : String}
    (isListed : word ∈ vocabulary) :
    CubicBezier.IsPart word.toList := by
  have each : ∀ word ∈ vocabulary, word.toList ≠ [] ∧
      word.toList.all (fun c => !isBlank c && !CubicBezier.marks.contains c) =
        true := by
    decide
  obtain ⟨isThere, areClean⟩ := each word isListed
  have isClean : ∀ c ∈ word.toList, isBlank c = false ∧ c ∉ CubicBezier.marks := by
    simpa using areClean
  exact ⟨isThere, fun c isChar => (isClean c isChar).1,
    fun c isChar => (isClean c isChar).2⟩

theorem isPart_digits
    (count : Nat) :
    CubicBezier.IsPart (Number.Decimal.digits count) := by
  have isClean : ∀ c ∈ Number.Decimal.digits count, isBlank c = false ∧
      c ∉ CubicBezier.marks := by
    intro c isMember
    have isSpan : isSpanChar c = true := by
      rw [isSpanChar,
        Number.isNumeralChar_of_isDecimal
          (Number.isDecimal_of_isDigit
            (Number.Decimal.isDigit_of_mem_digits isMember))]
      rfl
    exact ⟨(not_of_isSpanChar isSpan).1, (not_of_isSpanChar isSpan).2.1⟩
  exact ⟨Number.Decimal.digits_ne_nil count, fun c isChar => (isClean c isChar).1,
    fun c isChar => (isClean c isChar).2⟩

/--
A time span as it is written: a word that is a time span again, or
that fills no slot.
-/
structure IsSpanText (chars : List Char) : Prop where
  isPart : CubicBezier.IsPart chars
  notCoordinate : CubicBezier.isCoordinate chars = false
  noLetter : 'c' ∉ chars
  slot : Duration.isExplicit chars = true ∨ IsIdle chars

theorem isSpanText_of_chars
    {chars : List Char}
    (areSpan : ∀ c ∈ chars, isSpanChar c = true)
    (isLast : chars.getLast? = some 's') :
    IsSpanText chars := by
  have isChar : 's' ∈ chars := List.mem_of_getLast? isLast
  refine ⟨⟨List.ne_nil_of_mem isChar,
    fun c inChars => (not_of_isSpanChar (areSpan c inChars)).1,
    fun c inChars => (not_of_isSpanChar (areSpan c inChars)).2.1⟩, ?_,
    fun isLetter => (not_of_isSpanChar (areSpan 'c' isLetter)).2.2 rfl, ?_⟩
  · have isBehind : 's' ∈ (Number.scanMinus chars).2 := by
      rcases CubicBezier.scanMinus_cases chars with isSame | ⟨rest, rfl, isRest⟩
      · rwa [isSame]
      · rw [isRest]
        exact (List.mem_cons.mp isChar).resolve_left (by decide)
    have notCoordinate :
        (Number.scanMinus chars).2.all CubicBezier.isCoordinateChar = false := by
      rw [List.all_eq_false]
      exact ⟨'s', isBehind, by decide⟩
    rw [CubicBezier.isCoordinate, notCoordinate, Bool.and_false]
  · cases explicit : Duration.isExplicit chars with
    | true => exact .inl rfl
    | false =>
        -- No listed word ends like a unit and has none but characters of numbers.
        have others : ∀ word ∈ vocabulary, word.toList.getLast? ≠ some 's' ∨
            word.toList.all isSpanChar = false := by
          decide
        refine .inr
          (isIdle_of_not_mem explicit isChar (by decide) fun isListed => ?_)
        rcases others _ isListed with notLast | notAll
        · rw [String.toList_ofList] at notLast
          exact notLast isLast
        · rw [String.toList_ofList, List.all_eq_true.mpr areSpan] at notAll
          cases notAll

theorem exists_spanText
    {duration : Duration}
    (isSpan : IsSpan duration) :
    ∃ chars, duration.text = .ok (String.ofList chars) ∧ IsSpanText chars := by
  obtain ⟨value, unit, rfl, isListed, _⟩ := isSpan
  obtain ⟨digits, isText, _, areSpan⟩ := exists_doubleText value
  have units : ∀ unit ∈ Duration.units, unit.toList.getLast? = some 's' ∧
      unit.toList.all isSpanChar = true := by
    decide
  obtain ⟨isLast, unitSpan⟩ := units unit isListed
  refine ⟨digits ++ unit.toList, ?_, isSpanText_of_chars ?_ ?_⟩
  · rw [String.ofList_append, String.ofList_toList, Duration.text, isText, ok_bind]
    rfl
  · exact List.forall_mem_append.mpr ⟨areSpan, List.all_eq_true.mp unitSpan⟩
  · rw [List.getLast?_append, isLast]
    rfl

/-- A time span that needs no exponent is written as a time span. -/
theorem isExplicit_of_plain
    {value : Float}
    {unit : String}
    (isListed : unit ∈ Duration.units)
    (notNegative : Number.hasSignBit value = false)
    (isPlain : Number.IsPlainInSix value)
    {chars : List Char}
    (isText : (Duration.mk (.float value) (.str unit)).text =
      .ok (String.ofList chars)) :
    Duration.isExplicit chars = true := by
  obtain ⟨numeral, hasWhole, isNumber, isSign, _⟩ := exists_numberText isPlain
  rw [Duration.text, isNumber, ok_bind] at isText
  have isForm : String.ofList numeral.text ++ unit = String.ofList chars :=
    Except.ok.inj isText
  have areChars : chars = numeral.text ++ unit.toList := by
    rw [← String.toList_inj, String.toList_append, String.toList_ofList,
      String.toList_ofList] at isForm
    exact isForm.symm
  rw [areChars]
  exact Duration.isExplicit_numeral (isSign notNegative) hasWhole isListed

/-! Curves. -/

theorem exists_curveParts
    (x1 y1 x2 y2 : Float) :
    ∃ parts : CubicBezier.Parts,
      (CubicBezier.mk (.float x1) (.float y1) (.float x2) (.float y2)).text =
        .ok (String.ofList (parts.written [])) ∧
      ∀ chars ∈ parts.texts, CubicBezier.IsPart chars := by
  have isPart {chars : List Char} (isThere : chars ≠ [])
    (areSpan : ∀ c ∈ chars, isSpanChar c = true) : CubicBezier.IsPart chars :=
    ⟨isThere, fun c isChar => (not_of_isSpanChar (areSpan c isChar)).1,
      fun c isChar => (not_of_isSpanChar (areSpan c isChar)).2.1⟩
  obtain ⟨charsX1, textX1, thereX1, spanX1⟩ := exists_doubleText x1
  obtain ⟨charsY1, textY1, thereY1, spanY1⟩ := exists_doubleText y1
  obtain ⟨charsX2, textX2, thereX2, spanX2⟩ := exists_doubleText x2
  obtain ⟨charsY2, textY2, thereY2, spanY2⟩ := exists_doubleText y2
  let parts : CubicBezier.Parts := ⟨charsX1, charsY1, charsX2, charsY2⟩
  refine ⟨parts, parts.text_written ?_, ?_⟩
  · simp only [CubicBezier.points, List.mapM_cons, List.mapM_nil, textX1, textY1,
      textX2, textY2, ok_bind]
    rfl
  · simp [parts, CubicBezier.Parts.texts, isPart thereX1 spanX1,
      isPart thereY1 spanY1, isPart thereX2 spanX2, isPart thereY2 spanY2]

/-- The words of a written curve, each with the mark behind it. -/
def curveWords (parts : CubicBezier.Parts) : List (List Char) :=
  [ "cubic-bezier(".toList ++ parts.x1 ++ [','], parts.y1 ++ [','],
    parts.x2 ++ [','], parts.y2 ++ [')'] ]

theorem words_written
    {parts : CubicBezier.Parts}
    (areParts : ∀ chars ∈ parts.texts, CubicBezier.IsPart chars) :
    words (parts.written []) = curveWords parts := by
  simp only [CubicBezier.Parts.texts, List.forall_mem_cons] at areParts
  obtain ⟨isX1, isY1, isX2, isY2, _⟩ := areParts
  have inkPart {chars : List Char} (isPart : CubicBezier.IsPart chars)
      (front : List Char) (isFront : front.all (fun c => !isBlank c) = true)
      (mark : Char) (isMark : mark ∈ CubicBezier.marks) :
          words (front ++ chars ++ [mark]) = [front ++ chars ++ [mark]] := by
    refine words_of_not_blank (by simp)
      (List.forall_mem_append.mpr
        ⟨List.forall_mem_append.mpr ⟨fun c isChar => ?_, isPart.ink⟩,
          List.forall_mem_singleton.mpr ?_⟩)
    · simpa using List.all_eq_true.mp isFront c isChar
    · exact (CubicBezier.not_of_mem_marks isMark).2
  have isSpaced (name : List Char) :
      name ++ parts.inside [] =
        name ++ parts.x1 ++ [','] ++
          spaced [[] ++ parts.y1 ++ [','], [] ++ parts.x2 ++ [','],
            [] ++ parts.y2 ++ [')']] := by
    simp [CubicBezier.Parts.inside]
  have isFirst := inkPart isX1 "cubic-bezier(".toList (by decide) ',' (by decide)
  unfold CubicBezier.Parts.written
  rw [isSpaced "cubic-bezier(".toList, words_append_spaced, isFirst]
  simp only [List.flatMap_cons, List.flatMap_nil,
    inkPart isY1 [] (by decide) ',' (by decide),
    inkPart isX2 [] (by decide) ',' (by decide),
    inkPart isY2 [] (by decide) ')' (by decide)]
  rfl

theorem isIdle_of_mem_curveWords
    {parts : CubicBezier.Parts}
    {chars : List Char}
    (isWord : chars ∈ curveWords parts) :
    IsIdle chars := by
  simp only [curveWords, List.mem_cons, List.not_mem_nil, or_false] at isWord
  rcases isWord with rfl | rfl | rfl | rfl
  all_goals exact isIdle_of_mark _ (by decide)

end Animation

end DesignTokens
