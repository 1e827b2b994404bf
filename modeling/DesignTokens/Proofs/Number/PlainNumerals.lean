import DesignTokens.Proofs.Value.Numerals

namespace DesignTokens.Number

/-!
# Plain numerals

A plain numeral is a minus sign or none, with digits behind it and possibly a
point among them.  A scanner takes the longest plain numeral at the front of a
text, and the whole text of one is read as the same number.
-/

open DesignTokens.Text

/-- A plain numeral; without digits behind the point there is no point. -/
structure PlainNumeral where
  negative : Bool
  whole : List Char
  fraction : List Char
  wholeDigits : ∀ c ∈ whole, isDecimal c = true
  fractionDigits : ∀ c ∈ fraction, isDecimal c = true
  hasDigit : whole ≠ [] ∨ fraction ≠ []

/-- A digit as a numeral. -/
def PlainNumeral.ofDigit (c : Char) (isDigit : isDecimal c = true) :
    PlainNumeral where
  negative := false
  whole := [c]
  fraction := []
  wholeDigits := List.forall_mem_singleton.mpr isDigit
  fractionDigits := List.forall_mem_nil _
  hasDigit := .inl (List.cons_ne_nil _ _)

/-- A text behind a numeral that begins with none of its characters. -/
def EndsNumeral (rest : List Char) : Prop :=
  ∀ c, rest.head? = some c → isNumeralChar c = false

theorem endsNumeral_nil :
    EndsNumeral [] := by
  rintro c ⟨⟩

theorem endsNumeral_cons
    {c : Char}
    (isOther : isNumeralChar c = false)
    (rest : List Char) :
    EndsNumeral (c :: rest) := by
  rintro first ⟨⟩
  exact isOther

/-! Taking digits. -/

theorem isDecimal_point :
    isDecimal '.' = false := by
  decide

theorem isDecimal_of_mem_scanDigits
    {chars : List Char} :
    ∀ c ∈ (scanDigits chars).1, isDecimal c = true :=
  fun _ isTaken => List.mem_takeWhile_imp isTaken

/-- Digits are taken as far as they go. -/
theorem scanDigits_append_of_digits
    {digits : List Char}
    (areDigits : ∀ c ∈ digits, isDecimal c = true)
    (rest : List Char) :
    scanDigits (digits ++ rest) =
      (digits ++ (scanDigits rest).1, (scanDigits rest).2) := by
  rw [scanDigits, List.takeWhile_append_of_pos areDigits,
    List.dropWhile_append_of_pos areDigits]
  rfl

theorem scanDigits_of_endsNumeral
    {rest : List Char}
    (ends : EndsNumeral rest) :
    scanDigits rest = ([], rest) := by
  cases rest with
  | nil => rfl
  | cons c more =>
      have noDigit : isDecimal c = false := by
        have isOther := ends c rfl
        simp only [isNumeralChar, Bool.or_eq_false_iff] at isOther
        exact isOther.1.1
      simp [scanDigits, noDigit]

theorem scanDigits_point
    (rest : List Char) :
    scanDigits ('.' :: rest) = ([], '.' :: rest) := by
  simp [scanDigits, isDecimal_point]

/-- The point and the digits behind it. -/
def fractionText (fraction : List Char) : List Char :=
  if fraction.isEmpty then [] else '.' :: fraction

@[simp] theorem fractionText_nil :
    fractionText [] = [] :=
  rfl

theorem fractionText_of_ne_nil
    {fraction : List Char}
    (isThere : fraction ≠ []) :
    fractionText fraction = '.' :: fraction := by
  simp [fractionText, isThere]

/-- A written fraction is taken whole. -/
theorem scanFraction_fractionText
    {fraction rest : List Char}
    (areDigits : ∀ c ∈ fraction, isDecimal c = true)
    (ends : EndsNumeral rest) :
    scanFraction (fractionText fraction ++ rest) = (fraction, rest) := by
  by_cases isEmpty : fraction = []
  · subst isEmpty
    cases rest with
    | nil => rfl
    | cons c more =>
        have noPoint : c ≠ '.' := by
          rintro rfl
          cases isNumeralChar_point.symm.trans (ends '.' rfl)
        simp [scanFraction, noPoint]
  · have isTaken : scanDigits (fraction ++ rest) = (fraction, rest) := by
      rw [scanDigits_append_of_digits areDigits, scanDigits_of_endsNumeral ends,
        List.append_nil]
    rw [fractionText_of_ne_nil isEmpty]
    simp [scanFraction, isTaken, isEmpty]

/-- What is taken as a fraction was written as one. -/
theorem fractionText_scanFraction
    (chars : List Char) :
    (∀ c ∈ (scanFraction chars).1, isDecimal c = true) ∧
      fractionText (scanFraction chars).1 ++ (scanFraction chars).2 = chars := by
  unfold scanFraction
  split
  · rename_i rest
    simp only
    split
    · exact ⟨List.forall_mem_nil _, rfl⟩
    · rename_i isThere
      refine ⟨isDecimal_of_mem_scanDigits, ?_⟩
      rw [fractionText_of_ne_nil (by simpa using isThere), List.cons_append,
        scanDigits_append]
  · exact ⟨List.forall_mem_nil _, rfl⟩

namespace PlainNumeral

variable {numeral : PlainNumeral} {rest : List Char}

/-- The numeral, taken apart. -/
def literal (numeral : PlainNumeral) : Literal :=
  ⟨numeral.negative, numeral.whole, numeral.fraction, 0⟩

/-- The double nearest to the numeral. -/
def value (numeral : PlainNumeral) : Float :=
  numeral.literal.toFloat

/-- The numeral without its sign. -/
def unsignedText (numeral : PlainNumeral) : List Char :=
  numeral.whole ++ fractionText numeral.fraction

/-- The numeral as it is written. -/
def text (numeral : PlainNumeral) : List Char :=
  if numeral.negative then '-' :: numeral.unsignedText else numeral.unsignedText

/-- The longest plain numeral at the front of a text. -/
structure Leads (numeral : PlainNumeral) (chars : List Char) : Prop where
  isFront : numeral.text <+: chars
  isLongest : ∀ other : PlainNumeral, other.text <+: chars →
    other.text.length ≤ numeral.text.length

/-! Characters of a numeral. -/

theorem isDecimal_or_point_of_mem_unsignedText
    {c : Char}
    (isMember : c ∈ numeral.unsignedText) :
    isDecimal c = true ∨ c = '.' := by
  rcases List.mem_append.mp isMember with inWhole | inFraction
  · exact .inl (numeral.wholeDigits c inWhole)
  · unfold fractionText at inFraction
    split at inFraction
    · cases inFraction
    · rcases List.mem_cons.mp inFraction with isPoint | inDigits
      · exact .inr isPoint
      · exact .inl (numeral.fractionDigits c inDigits)

theorem exists_decimal_unsignedText
    (numeral : PlainNumeral) :
    ∃ c ∈ numeral.unsignedText, isDecimal c = true := by
  rcases numeral.hasDigit with isThere | isThere
  · obtain ⟨c, isChar⟩ := List.exists_mem_of_ne_nil _ isThere
    exact ⟨c, List.mem_append_left _ isChar, numeral.wholeDigits c isChar⟩
  · obtain ⟨c, isChar⟩ := List.exists_mem_of_ne_nil _ isThere
    refine ⟨c, List.mem_append_right _ ?_, numeral.fractionDigits c isChar⟩
    rw [fractionText_of_ne_nil isThere]
    exact List.mem_cons_of_mem _ isChar

theorem unsignedText_ne_nil
    (numeral : PlainNumeral) :
    numeral.unsignedText ≠ [] := by
  obtain ⟨c, isChar, _⟩ := numeral.exists_decimal_unsignedText
  exact List.ne_nil_of_mem isChar

theorem isNumeralChar_of_mem_text
    {c : Char}
    (isMember : c ∈ numeral.text) :
    isNumeralChar c = true := by
  have inUnsigned : ∀ c ∈ numeral.unsignedText, isNumeralChar c = true := by
    intro c isMember
    rcases isDecimal_or_point_of_mem_unsignedText isMember with decimal | rfl
    · exact isNumeralChar_of_isDecimal decimal
    · exact isNumeralChar_point
  unfold text at isMember
  split at isMember
  · rcases List.mem_cons.mp isMember with rfl | isUnsigned
    · decide
    · exact inUnsigned c isUnsigned
  · exact inUnsigned c isMember

theorem not_mem_text
    {c : Char}
    (isOther : isNumeralChar c = false) :
    c ∉ numeral.text := by
  intro isMember
  cases (isNumeralChar_of_mem_text isMember).symm.trans isOther

theorem text_ne_nil
    (numeral : PlainNumeral) :
    numeral.text ≠ [] := by
  unfold text
  split
  · exact List.cons_ne_nil _ _
  · exact numeral.unsignedText_ne_nil

theorem exists_text_cons
    (numeral : PlainNumeral) :
    ∃ c more, numeral.text = c :: more ∧ isNumeralChar c = true := by
  obtain ⟨c, more, isForm⟩ := List.exists_cons_of_ne_nil numeral.text_ne_nil
  exact ⟨c, more, isForm, isNumeralChar_of_mem_text (isForm ▸ List.mem_cons_self)⟩

/-- There is no blank in front of a numeral. -/
theorem skipBlank_text
    (numeral : PlainNumeral)
    (rest : List Char) :
    skipBlank (numeral.text ++ rest) = numeral.text ++ rest := by
  obtain ⟨c, more, isForm, isNumeral⟩ := numeral.exists_text_cons
  have isInk : isBlank c = false := not_isBlank_of_isNumeralChar isNumeral
  rw [isForm, List.cons_append, skipBlank,
    List.dropWhile_cons_of_neg (by simp [isInk])]

/-! Scanning a written numeral. -/

/-- A written sign is taken, and nothing is taken where there is none. -/
theorem scanMinus_text
    (numeral : PlainNumeral)
    (rest : List Char) :
    scanMinus (numeral.text ++ rest) =
      (numeral.negative, numeral.unsignedText ++ rest) := by
  unfold text
  split
  · rename_i isNegative
    rw [isNegative]
    rfl
  · rename_i notNegative
    rw [Bool.not_eq_true] at notNegative
    obtain ⟨c, more, shape⟩ :=
      List.exists_cons_of_ne_nil numeral.unsignedText_ne_nil
    have noMinus : c ≠ '-' := by
      rintro rfl
      have isThere : '-' ∈ numeral.unsignedText := shape ▸ List.mem_cons_self
      rcases isDecimal_or_point_of_mem_unsignedText isThere with decimal | isPoint
      · exact absurd decimal (by decide)
      · exact absurd isPoint (by decide)
    simp [shape, scanMinus, noMinus, notNegative]

theorem scanDigits_unsignedText
    (numeral : PlainNumeral)
    (ends : EndsNumeral rest) :
    scanDigits (numeral.unsignedText ++ rest) =
      (numeral.whole, fractionText numeral.fraction ++ rest) := by
  have noDigit : scanDigits (fractionText numeral.fraction ++ rest) =
      ([], fractionText numeral.fraction ++ rest) := by
    unfold fractionText
    split
    · exact scanDigits_of_endsNumeral ends
    · exact scanDigits_point _
  rw [unsignedText, List.append_assoc,
    scanDigits_append_of_digits numeral.wholeDigits, noDigit, List.append_nil]

theorem scanUnsigned?_unsignedText
    (startsWhole : numeral.whole ≠ [])
    (ends : EndsNumeral rest) :
    scanUnsigned? (numeral.unsignedText ++ rest) =
      some (⟨false, numeral.whole, numeral.fraction, 0⟩, rest) := by
  unfold scanUnsigned?
  simp only [numeral.scanDigits_unsignedText ends,
    scanFraction_fractionText numeral.fractionDigits ends]
  simp [startsWhole]

/-- A plain numeral is taken as it was written. -/
theorem scanNumber?_text
    (numeral : PlainNumeral)
    (ends : EndsNumeral rest) :
    scanNumber? (numeral.text ++ rest) = some (numeral.literal, rest) := by
  unfold scanNumber?
  simp only [numeral.scanMinus_text]
  by_cases startsWhole : numeral.whole = []
  · have isFraction : numeral.fraction ≠ [] :=
      numeral.hasDigit.resolve_left (not_not_intro startsWhole)
    have noWhole : scanUnsigned? (numeral.unsignedText ++ rest) = none := by
      unfold scanUnsigned?
      simp [numeral.scanDigits_unsignedText ends, startsWhole]
    have isTaken := scanFraction_fractionText numeral.fractionDigits ends
    rw [noWhole, unsignedText, startsWhole, List.nil_append]
    simp [isTaken, isFraction, literal, startsWhole]
  · simp only [scanUnsigned?_unsignedText startsWhole ends]
    rfl

/--
A plain numeral with digits before the point is taken where these are required.
-/
theorem scanWholeFirst?_text
    (startsWhole : numeral.whole ≠ [])
    (ends : EndsNumeral rest) :
    scanWholeFirst? (numeral.text ++ rest) = some (numeral.literal, rest) := by
  unfold scanWholeFirst?
  simp only [numeral.scanMinus_text, scanUnsigned?_unsignedText startsWhole ends]
  rfl

/-! Reading a written numeral. -/

theorem toLower_of_isDecimal
    {c : Char}
    (decimal : isDecimal c = true) :
    c.toLower = c := by
  delta Char.toLower
  rw [dif_neg]
  rintro ⟨above, below⟩
  have isNear : c.toNat < 128 :=
    Nat.lt_of_le_of_lt (show c.toNat ≤ 'Z'.toNat from below) (by decide)
  have noCapital : isDecimal c = true → ¬ ('A'.val ≤ c.val) :=
    of_toNat_lt isNear (by decide)
  exact noCapital decimal above

theorem scanSign_text
    (numeral : PlainNumeral) :
    scanSign numeral.text = (numeral.negative, numeral.unsignedText) := by
  have isTaken := numeral.scanMinus_text []
  rw [List.append_nil, List.append_nil] at isTaken
  unfold scanSign
  split
  · rename_i rest isForm
    rw [isForm] at isTaken
    exact isTaken
  · rename_i rest isForm
    have isThere : '+' ∈ numeral.text := isForm ▸ List.mem_cons_self
    exact (not_mem_text (by decide) isThere).elim
  · rename_i noMinus noPlus
    unfold scanMinus at isTaken
    split at isTaken
    · rename_i rest isForm
      exact (noMinus rest isForm).elim
    · exact isTaken

/-- A text with a digit is no word for a number. -/
theorem readSpecial?_text
    (numeral : PlainNumeral) :
    readSpecial? numeral.text = none := by
  obtain ⟨c, isChar, decimal⟩ := numeral.exists_decimal_unsignedText
  have noWord : ∀ word : String, word.toList.any isDecimal = false →
      String.ofList (numeral.unsignedText.map Char.toLower) ≠ word := by
    rintro word noDigit rfl
    have isThere : c ∈ numeral.unsignedText.map Char.toLower :=
      List.mem_map.mpr ⟨c, isChar, toLower_of_isDecimal decimal⟩
    rw [String.toList_ofList] at noDigit
    exact List.any_eq_false.mp noDigit c isThere decimal
  unfold readSpecial?
  simp only [scanSign_text]
  rw [if_neg, if_neg]
  · exact noWord "nan" (by decide)
  · rintro (isWord | isWord)
    · exact noWord "inf" (by decide) isWord
    · exact noWord "infinity" (by decide) isWord

theorem readLiteral?_text
    (numeral : PlainNumeral) :
    readLiteral? numeral.text = some numeral.literal := by
  have noUnderscore : '_' ∉ numeral.text := not_mem_text (by decide)
  have kept : numeral.text.filter (· != '_') = numeral.text := by
    rw [List.filter_eq_self]
    rintro c isMember
    simp only [bne_iff_ne, ne_eq]
    rintro rfl
    exact noUnderscore isMember
  have isWhole : scanDigits numeral.unsignedText =
      (numeral.whole, fractionText numeral.fraction) := by
    simpa using numeral.scanDigits_unsignedText endsNumeral_nil
  have hasDigit := numeral.hasDigit
  unfold readLiteral?
  simp only [underscoresBetweenDigits_of_not_mem noUnderscore, kept, scanSign_text,
    isWhole]
  by_cases isEmpty : numeral.fraction = []
  · have startsWhole : numeral.whole ≠ [] :=
      hasDigit.resolve_right (not_not_intro isEmpty)
    simp [isEmpty, startsWhole, scanExponent, literal]
  · have isTaken : scanDigits numeral.fraction = (numeral.fraction, []) := by
      have isAll := scanDigits_append_of_digits numeral.fractionDigits []
      rwa [List.append_nil, scanDigits_of_endsNumeral endsNumeral_nil,
        List.append_nil] at isAll
    simp [fractionText_of_ne_nil isEmpty, isTaken, isEmpty, scanExponent, literal]

/-- The text of a plain numeral is read as its value. -/
theorem readFloat?_text
    (numeral : PlainNumeral) :
    readFloat? (String.ofList numeral.text) = some numeral.value := by
  have noBlank : ∀ c ∈ numeral.text, isBlank c = false :=
    fun c isMember =>
      not_isBlank_of_isNumeralChar (isNumeralChar_of_mem_text isMember)
  unfold readFloat?
  simp only [String.toList_ofList, dropPadding_of_not_blank noBlank,
    readSpecial?_text, readLiteral?_text]
  rfl

/-- Numerals of one text have one value. -/
theorem value_eq_of_text_eq
    {numeral other : PlainNumeral}
    (isSame : numeral.text = other.text) :
    numeral.value = other.value := by
  have isRead := numeral.readFloat?_text
  rw [isSame, other.readFloat?_text] at isRead
  exact (Option.some.inj isRead).symm

/-! The longest numeral. -/

/-- Where a text begins with a numeral, a scan takes that much of it at least. -/
theorem exists_scanNumber?_append
    (numeral : PlainNumeral)
    (tail : List Char) :
    ∃ found rest, scanNumber? (numeral.text ++ tail) = some (found, rest) ∧
      rest <:+ tail := by
  have digitsLeft : (scanDigits tail).2 <:+ tail := List.dropWhile_suffix _
  unfold scanNumber? scanUnsigned?
  simp only [numeral.scanMinus_text, unsignedText, List.append_assoc,
    scanDigits_append_of_digits numeral.wholeDigits]
  by_cases isEmpty : numeral.fraction = []
  · have startsWhole : numeral.whole ≠ [] :=
      numeral.hasDigit.resolve_right (not_not_intro isEmpty)
    have fractionLeft :
        (scanFraction (scanDigits tail).2).2 <:+ (scanDigits tail).2 :=
      ⟨_, (fractionText_scanFraction _).2⟩
    refine ⟨⟨numeral.negative, numeral.whole ++ (scanDigits tail).1,
      (scanFraction (scanDigits tail).2).1, 0⟩, _, ?_,
      fractionLeft.trans digitsLeft⟩
    simp [isEmpty, startsWhole]
  · have isTaken : scanFraction ('.' :: (numeral.fraction ++ tail)) =
        (numeral.fraction ++ (scanDigits tail).1, (scanDigits tail).2) := by
      simp [scanFraction, scanDigits_append_of_digits numeral.fractionDigits,
        isEmpty]
    rw [fractionText_of_ne_nil isEmpty, List.cons_append, scanDigits_point]
    refine ⟨⟨numeral.negative, numeral.whole,
      numeral.fraction ++ (scanDigits tail).1, 0⟩, _, ?_, digitsLeft⟩
    by_cases startsWhole : numeral.whole = []
    · simp [startsWhole, isTaken, isEmpty]
    · simp [startsWhole, isTaken]

/-- What is taken as a number is a plain numeral, with nothing left out. -/
theorem exists_of_scanNumber?
    {chars rest : List Char}
    {found : Literal}
    (scanned : scanNumber? chars = some (found, rest)) :
    ∃ numeral : PlainNumeral, numeral.literal = found ∧
      chars = numeral.text ++ rest := by
  have isSigned : chars = if (scanMinus chars).1 then '-' :: (scanMinus chars).2
      else (scanMinus chars).2 := by
    unfold scanMinus
    split <;> rfl
  have withSign : ∀ numeral : PlainNumeral, numeral.negative = (scanMinus chars).1 →
      (scanMinus chars).2 = numeral.unsignedText ++ rest →
      chars = numeral.text ++ rest := by
    intro numeral isSign isRest
    rw [isSigned, text, isSign, isRest]
    split <;> rfl
  unfold scanNumber? scanUnsigned? at scanned
  simp only at scanned
  obtain ⟨fractionDigits, isFraction⟩ :=
    fractionText_scanFraction (scanDigits (scanMinus chars).2).2
  have isWhole := scanDigits_append (scanMinus chars).2
  split at scanned
  · rename_i isUnsigned
    split at isUnsigned
    · cases isUnsigned
    · rename_i isThere
      cases isUnsigned
      cases scanned
      refine ⟨⟨_, _, _, isDecimal_of_mem_scanDigits, fractionDigits, .inl ?_⟩, rfl,
        withSign _ rfl ?_⟩
      · simpa using isThere
      · rw [unsignedText, List.append_assoc, isFraction, isWhole]
  · split at scanned
    · cases scanned
    · rename_i isThere
      cases scanned
      obtain ⟨fractionDigits, isFraction⟩ :=
        fractionText_scanFraction (scanMinus chars).2
      refine ⟨⟨_, [], _, List.forall_mem_nil _, fractionDigits,
        .inr (by simpa using isThere)⟩, rfl, withSign _ rfl ?_⟩
      exact isFraction.symm

/-- What is taken as a number is the longest plain numeral at the front. -/
theorem leads_of_scanNumber?
    {chars rest : List Char}
    {found : Literal}
    (scanned : scanNumber? chars = some (found, rest)) :
    ∃ numeral : PlainNumeral, numeral.literal = found ∧ numeral.Leads chars := by
  obtain ⟨numeral, isFound, isForm⟩ := exists_of_scanNumber? scanned
  refine ⟨numeral, isFound, ⟨rest, isForm.symm⟩, ?_⟩
  rintro other ⟨tail, rfl⟩
  obtain ⟨_, left, isScanned, isSuffix⟩ := other.exists_scanNumber?_append tail
  obtain ⟨_, rfl⟩ := Prod.mk.inj (Option.some.inj (scanned.symm.trans isScanned))
  have sameLength := congrArg List.length isForm
  rw [List.length_append, List.length_append] at sameLength
  have := isSuffix.length_le
  omega

/-- No number is taken exactly where no plain numeral stands at the front. -/
theorem scanNumber?_eq_none_iff
    {chars : List Char} :
    scanNumber? chars = none ↔
      ∀ numeral : PlainNumeral, ¬ numeral.text <+: chars := by
  constructor
  · rintro isNone numeral ⟨tail, rfl⟩
    obtain ⟨found, rest, isScanned, _⟩ := numeral.exists_scanNumber?_append tail
    cases isNone.symm.trans isScanned
  · intro noNumeral
    rw [Option.eq_none_iff_forall_ne_some]
    rintro ⟨found, rest⟩ scanned
    obtain ⟨numeral, _, isForm⟩ := exists_of_scanNumber? scanned
    exact noNumeral numeral ⟨rest, isForm.symm⟩

end PlainNumeral

end DesignTokens.Number
