import DesignTokens.Color.Formats
import DesignTokens.Proofs.Color.Shares
import DesignTokens.Proofs.Number.Printed

namespace DesignTokens.Color

/-!
# Written colors are read again

A color whose channels are shares is written as `rgb(…)` with three whole
numbers, or as `rgba(…)` with an alpha behind them.  Such a text is a color
again, though not always the same one: channels are written in 255ths.
-/

open DesignTokens.Text
open DesignTokens.Number (PlainNumeral EndsNumeral)

/-- A color function of three numbers and possibly an alpha. -/
structure RgbText where
  red : PlainNumeral
  green : PlainNumeral
  blue : PlainNumeral
  alpha? : Option PlainNumeral

/-- A channel number is taken as it was written. -/
theorem scanChannel?_text
    {numeral : PlainNumeral}
    {rest : List Char}
    (ends : EndsNumeral rest)
    (noExponent : ∀ c, rest.head? = some c → c ≠ 'e' ∧ c ≠ 'E') :
    scanChannel? (numeral.text ++ rest) = some (numeral.value, rest) := by
  have isNoExponent : scanChannelExponent rest = (0, rest) := by
    unfold scanChannelExponent
    split
    · rfl
    · unfold Number.scanExponent
      split
      · rename_i mark more _
        rw [if_neg (not_or.mpr (noExponent mark rfl))]
      · rfl
  unfold scanChannel?
  simp only [numeral.scanMinus_text, numeral.scanDigits_unsignedText ends]
  by_cases isEmpty : numeral.fraction = []
  · have startsWhole : numeral.whole ≠ [] :=
      numeral.hasDigit.resolve_right (not_not_intro isEmpty)
    have noPoint : ∀ more, rest ≠ '.' :: more := by
      rintro more rfl
      cases Number.isNumeralChar_point.symm.trans (ends '.' rfl)
    rw [isEmpty, Number.fractionText_nil, List.nil_append]
    split
    · exact (noPoint _ rfl).elim
    · simp [startsWhole, isNoExponent, PlainNumeral.value, PlainNumeral.literal,
        isEmpty]
  · have isTaken : Number.scanDigits (numeral.fraction ++ rest) =
        (numeral.fraction, rest) := by
      rw [Number.scanDigits_append_of_digits numeral.fractionDigits,
        Number.scanDigits_of_endsNumeral ends, List.append_nil]
    rw [Number.fractionText_of_ne_nil isEmpty]
    simp [isTaken, isEmpty, isNoExponent, PlainNumeral.value, PlainNumeral.literal]

namespace RgbText

variable (written : RgbText)

/-- The name of the function with its opening parenthesis. -/
def name (written : RgbText) : List Char :=
  match written.alpha? with
  | some _ => ['r', 'g', 'b', 'a', '(']
  | none => ['r', 'g', 'b', '(']

/-- The alpha behind the channels. -/
def alphaChars (written : RgbText) : List Char :=
  match written.alpha? with
  | some alpha => ',' :: ' ' :: alpha.text
  | none => []

/-- What stands between the parentheses. -/
def inside (written : RgbText) : List Char :=
  written.red.text ++ ',' :: ' ' :: (written.green.text ++
    ',' :: ' ' :: (written.blue.text ++ written.alphaChars))

/-- The function as it is written. -/
def text (written : RgbText) : List Char :=
  written.name ++ (written.inside ++ [')'])

theorem exists_text_cons :
    ∃ rest, written.text = 'r' :: 'g' :: 'b' :: rest := by
  unfold text name
  cases written.alpha? with
  | none => exact ⟨_, rfl⟩
  | some alpha => exact ⟨_, rfl⟩

theorem inside_cases :
    ∀ c ∈ written.inside, Number.isNumeralChar c = true ∨ c = ',' ∨ c = ' ' := by
  have numeral (one : PlainNumeral) :
      ∀ c ∈ one.text, Number.isNumeralChar c = true ∨ c = ',' ∨ c = ' ' :=
    fun _ isMember => .inl (PlainNumeral.isNumeralChar_of_mem_text isMember)
  have inAlpha : ∀ c ∈ written.alphaChars, Number.isNumeralChar c = true ∨ c = ',' ∨
      c = ' ' := by
    unfold alphaChars
    cases written.alpha? with
    | none => exact List.forall_mem_nil _
    | some alpha =>
        exact List.forall_mem_cons.mpr
          ⟨.inr (.inl rfl),
            List.forall_mem_cons.mpr ⟨.inr (.inr rfl), numeral alpha⟩⟩
  unfold inside
  simp only [List.forall_mem_append, List.forall_mem_cons, true_or, or_true,
    true_and]
  exact ⟨numeral _, numeral _, numeral _, inAlpha⟩

/-- The first closing parenthesis is the last character. -/
theorem not_mem_inside :
    ')' ∉ written.inside := by
  intro isMember
  rcases written.inside_cases ')' isMember with isNumeral | isComma | isSpace
  · exact absurd isNumeral (by decide)
  · exact absurd isComma (by decide)
  · exact absurd isSpace (by decide)

theorem settled_text :
    ∀ c ∈ written.text, IsSettled c := by
  have inName : ∀ c ∈ written.name, IsSettled c := by
    unfold name
    split
    all_goals
      simp only [List.forall_mem_cons, List.not_mem_nil, false_implies,
        implies_true, and_true]
      decide
  have isClosing : IsSettled ')' := by decide
  refine List.forall_mem_append.mpr ⟨inName, List.forall_mem_append.mpr
    ⟨fun c isMember => ?_, List.forall_mem_singleton.mpr isClosing⟩⟩
  rcases written.inside_cases c isMember with isNumeral | rfl | rfl
  · exact Number.isSettled_of_isNumeralChar isNumeral
  · decide
  · decide

theorem trimmed_text :
    Trimmed written.text := by
  constructor
  · intro c isFirst
    obtain ⟨rest, isForm⟩ := written.exists_text_cons
    rw [isForm] at isFirst
    cases isFirst
    decide
  · intro c isLast
    rw [text, ← List.append_assoc, List.getLast?_concat] at isLast
    cases isLast
    decide

theorem endsNumeral_mark
    {mark : Char}
    (isMark : mark = ',' ∨ mark = ')')
    (rest : List Char) :
    EndsNumeral (mark :: rest) := by
  rcases isMark with rfl | rfl
  · exact Number.endsNumeral_cons (by decide) rest
  · exact Number.endsNumeral_cons (by decide) rest

/-- A channel is taken up to the mark behind it. -/
theorem scanChannel?_mark
    (numeral : PlainNumeral)
    {mark : Char}
    (isMark : mark = ',' ∨ mark = ')')
    (rest : List Char) :
    scanChannel? (numeral.text ++ mark :: rest) =
      some (numeral.value, mark :: rest) := by
  refine scanChannel?_text (endsNumeral_mark isMark rest) ?_
  rintro c ⟨⟩
  rcases isMark with rfl | rfl <;> decide

/-- The separator in front of a channel is taken with the blank behind it. -/
theorem scanSeparator?_text
    (numeral : PlainNumeral)
    (rest : List Char) :
    scanSeparator? (',' :: ' ' :: (numeral.text ++ rest)) =
      some (numeral.text ++ rest) := by
  unfold scanSeparator?
  have isInk : skipBlank (',' :: ' ' :: (numeral.text ++ rest)) =
      ',' :: ' ' :: (numeral.text ++ rest) := rfl
  have isBlank : skipBlank (' ' :: (numeral.text ++ rest)) = numeral.text ++ rest :=
    numeral.skipBlank_text rest
  simp only [isInk, isBlank]

theorem exists_scanAlphaEnd? :
    ∃ alpha, scanAlphaEnd? [',', '/'] (written.alphaChars ++ [')']) =
      some alpha := by
  unfold alphaChars
  cases written.alpha? with
  | none => exact ⟨_, rfl⟩
  | some alpha =>
      refine ⟨channelPart 1.0 alpha.value false, ?_⟩
      have isInk : skipBlank (',' :: ' ' :: (alpha.text ++ [')'])) =
          ',' :: ' ' :: (alpha.text ++ [')']) := rfl
      have isBlank :
          skipBlank (' ' :: (alpha.text ++ [')'])) = alpha.text ++ [')'] :=
        alpha.skipBlank_text [')']
      have isMark : [',', '/'].contains ',' = true := rfl
      rw [List.cons_append, List.cons_append, scanAlphaEnd?, isInk]
      split
      · rename_i isEnd
        cases isEnd
      · rename_i mark rest _ isForm
        cases isForm
        simp only [isMark, if_true, isBlank, scanChannel?_mark alpha (.inr rfl) []]
        rfl
      · rename_i isEnd
        cases isEnd

/-- What stands behind the name is taken as three channels and an alpha. -/
theorem exists_parseRgb_text :
    ∃ color, parseRgb (String.ofList written.text) = some color := by
  have isName : scanFunction? ['r', 'g', 'b'] written.text =
      some (written.inside ++ [')']) := by
    unfold text name scanFunction?
    cases written.alpha? with
    | none => rfl
    | some alpha => rfl
  obtain ⟨alpha, isAlpha⟩ := written.exists_scanAlphaEnd?
  have blueIsTaken :
      scanChannel? (written.blue.text ++ (written.alphaChars ++ [')'])) =
        some (written.blue.value, written.alphaChars ++ [')']) := by
    unfold alphaChars
    cases written.alpha? with
    | none => exact scanChannel?_mark _ (.inr rfl) []
    | some alpha => exact scanChannel?_mark _ (.inl rfl) _
  have noPercent : scanPercent (written.alphaChars ++ [')']) =
      (false, written.alphaChars ++ [')']) := by
    unfold alphaChars
    cases written.alpha? <;> rfl
  have isForm : written.inside ++ [')'] =
      written.red.text ++ ',' :: ' ' :: (written.green.text ++ ',' :: ' ' ::
        (written.blue.text ++ (written.alphaChars ++ [')']))) := by
    simp [inside]
  have percent (rest : List Char) :
      scanPercent (',' :: rest) = (false, ',' :: rest) := rfl
  unfold parseRgb
  simp only [String.toList_ofList, written.trimmed_text.trimChars_eq, isName,
    isForm, PlainNumeral.skipBlank_text, scanChannel?_mark _ (.inl rfl), percent,
    scanSeparator?_text, blueIsTaken, noPercent, isAlpha, Option.bind_eq_bind,
    Option.bind_some, Option.pure_def]
  exact ⟨_, rfl⟩

/-- A written color is read. -/
theorem exists_parse_text :
    ∃ color, Color.parse (String.ofList written.text) = .ok (some color) := by
  obtain ⟨color, isRead⟩ := written.exists_parseRgb_text
  obtain ⟨rest, isForm⟩ := written.exists_text_cons
  have isTrimmed :
      trim (String.ofList written.text) = String.ofList written.text := by
    rw [trim, String.toList_ofList, written.trimmed_text.trimChars_eq]
  have isLower :
      lower (String.ofList written.text) = String.ofList written.text := by
    rw [lower, String.toList_ofList, lowerChars,
      lowerFrom_of_settled written.settled_text]
  have isThere : String.ofList written.text ≠ "" := by
    rw [ne_eq, String.ofList_eq_empty_iff, isForm]
    exact List.cons_ne_nil _ _
  refine ⟨color, ?_⟩
  unfold Color.parse
  simp only [isTrimmed, isLower, if_neg isThere, isRead]
  rw [String.toList_ofList, isForm]
  rfl

end RgbText

/-! Writing a color. -/

/--
The 255ths of a share are a whole number, which is written as a plain numeral.
-/
theorem exists_byte_of_isShare
    {value : Float}
    (share : IsShare value) :
    ∃ whole, byte (.float value) = .ok whole := by
  obtain ⟨negative, mantissa, exponent, isNumber⟩ :=
    Number.exists_finite_of_isFinite share.2
  rw [byte, Number.roundToInt, Number.toWhole, isNumber]
  exact ⟨_, rfl⟩

/-- A color whose channels are shares is written as a function of numbers. -/
theorem exists_toRgb_of_hasShares
    {color : Color}
    (shares : HasShares color) :
    ∃ written : RgbText, color.toRgb = .ok (String.ofList written.text) := by
  obtain ⟨redShare, greenShare, blueShare, alphaShare⟩ := shares
  rename_i r g b a
  obtain ⟨red, isRed⟩ := exists_byte_of_isShare redShare
  obtain ⟨green, isGreen⟩ := exists_byte_of_isShare greenShare
  obtain ⟨blue, isBlue⟩ := exists_byte_of_isShare blueShare
  obtain ⟨_, _, _, isNumber⟩ := Number.exists_finite_of_isFinite alphaShare.1
  obtain ⟨redNumeral, _, redText⟩ := Number.isPlainText_intText red
  obtain ⟨greenNumeral, _, greenText⟩ := Number.isPlainText_intText green
  obtain ⟨blueNumeral, _, blueText⟩ := Number.isPlainText_intText blue
  obtain ⟨alphaNumeral, _, alphaIsText⟩ :=
    Number.isPlainText_fixedText isNumber (show 0 < 2 by decide)
  have isAlpha : alphaText (ofFloats r g b a) = .ok (Number.fixedText 2 a) := rfl
  have isBelow : isBelowOne (.float a) = .ok (decide (a < 1.0)) := rfl
  unfold toRgb
  simp only [ofFloats] at isAlpha ⊢
  rw [isRed, isGreen, isBlue, isBelow]
  simp only [ok_bind, isAlpha]
  cases decide (a < 1.0) with
  | true =>
      refine ⟨⟨redNumeral, greenNumeral, blueNumeral, some alphaNumeral⟩,
        congrArg Except.ok ?_⟩
      rw [← String.toList_inj]
      simp [RgbText.text, RgbText.name, RgbText.inside, RgbText.alphaChars, redText,
        greenText, blueText, alphaIsText]
  | false =>
      refine ⟨⟨redNumeral, greenNumeral, blueNumeral, none⟩, congrArg Except.ok ?_⟩
      rw [← String.toList_inj]
      simp [RgbText.text, RgbText.name, RgbText.inside, RgbText.alphaChars, redText,
        greenText, blueText]

end DesignTokens.Color
