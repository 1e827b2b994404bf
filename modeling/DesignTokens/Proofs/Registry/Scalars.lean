import DesignTokens.Proofs.Color.Forms
import DesignTokens.Proofs.Registry.Detection
import DesignTokens.Proofs.Value.AnimationWords
import DesignTokens.Proofs.Value.Composites

namespace DesignTokens

/-!
# Scalars

A scalar is written as a color, a length, a number, a time span or a truth
value.  Unless it is claimed as a color, a scalar is one numeral with its unit or
one word, so it is no text style, gradient, border, transition or list of steps.
-/

open DesignTokens.Text

/--
A text that is a color, a length with a unit, a number, a time span
or a truth value.
-/
inductive ScalarText (text : String) : Prop where
  | color (color : Color) :
      Color.parse text = .ok (some color) →
      ScalarText text
  | length :
      Dimension.hasUnit (trimChars text.toList) = true →
      ScalarText text
  | number :
      isNumberText text = true →
      ScalarText text
  | duration :
      Duration.isExplicit (trimChars text.toList) = true →
      ScalarText text
  | truth :
      (Handler.truthOf? text).isSome = true →
      ScalarText text

/-- The names of colors and of truth values. -/
def scalarWords : List String :=
  Color.named.map Prod.fst ++ ["true", "false"]

/-- A trimmed scalar other than a hexadecimal color or a color function. -/
inductive PlainScalar (chars : List Char) : Prop where
  | length :
      Dimension.hasUnit chars = true →
      PlainScalar chars
  | number :
      isBareNumber chars = true →
      PlainScalar chars
  | duration :
      Duration.isExplicit chars = true →
      PlainScalar chars
  | word :
      String.ofList (lowerChars chars) ∈ scalarWords →
      PlainScalar chars

/-- A settled character that no scalar word has does not stand in one either. -/
theorem not_mem_of_scalarWord
    {chars : List Char}
    (isWord : String.ofList (lowerChars chars) ∈ scalarWords)
    {c : Char}
    (settled : IsSettled c)
    (notInWords : ∀ word ∈ scalarWords, c ∉ word.toList) :
    c ∉ chars := by
  intro isChar
  refine notInWords _ isWord ?_
  rw [String.toList_ofList]
  exact settled.mem_lowerFrom isChar []

/-- No scalar word holds a blank or a digit. -/
theorem clean_scalarWords :
    ∀ word ∈ scalarWords,
      ∀ c ∈ word.toList, isBlank c = false ∧ isDecimal c = false := by
  have clean : scalarWords.all (fun word =>
      word.toList.all (fun c => !isBlank c && !isDecimal c)) = true := by
    decide
  intro word isWord c isChar
  simpa using List.all_eq_true.mp (List.all_eq_true.mp clean word isWord) c isChar

namespace PlainScalar

variable {chars : List Char}

/-- A character that stands neither in a numeral nor in a unit. -/
structure Foreign (mark : Char) : Prop where
  notNumeral :
    Number.isNumeralChar mark = false
  isInk :
    isBlank mark = false
  notTime :
    mark ∉ ['m', 's']
  notLength :
    ∀ unit ∈ Dimension.units, unit.toList.any (sameLetter mark) = false

theorem foreign_of_mem
    {mark : Char}
    (isMember : mark ∈ ['(', ',', ':', '#', 'i']) :
    Foreign mark := by
  have each :
      ['(', ',', ':', '#', 'i'].all
        (fun mark =>
          decide ( Number.isNumeralChar mark = false ∧ isBlank mark = false ∧
            mark ∉ ['m', 's'] ∧ ∀ unit ∈ Dimension.units,
              unit.toList.any (sameLetter mark) = false)) = true := by
    decide
  obtain ⟨notNumeral, isInk, notTime, notLength⟩ :=
    of_decide_eq_true (List.all_eq_true.mp each mark isMember)
  exact ⟨notNumeral, isInk, notTime, notLength⟩

theorem Foreign.not_mem_of_numeral
    {mark : Char}
    (isForeign : Foreign mark)
    {numeral : List Char}
    (isNumeral : Number.Numeral numeral) :
    mark ∉ numeral := by
  intro isChar
  cases isForeign.notNumeral.symm.trans (isNumeral.isNumeralChar mark isChar)

theorem Foreign.not_mem_of_hasUnit
    {mark : Char}
    (isForeign : Foreign mark)
    (isLength : Dimension.hasUnit chars = true) :
    mark ∉ chars := by
  obtain ⟨numeral, rest, isNumeral, unit, rfl⟩ :=
    Dimension.exists_numeral_of_hasUnit isLength
  intro isChar
  rcases List.mem_append.mp isChar with inNumeral | inRest
  · exact isForeign.not_mem_of_numeral isNumeral inNumeral
  · rw [← List.takeWhile_append_dropWhile (p := isBlank) (l := rest)] at inRest
    rcases List.mem_append.mp inRest with isSkipped | inUnit
    · cases isForeign.isInk.symm.trans (List.mem_takeWhile_imp isSkipped)
    · obtain ⟨known, isKnown, letter, isLetter, isSame⟩ :=
        Dimension.exists_letter_of_isUnit unit inUnit
      exact List.any_eq_false.mp (isForeign.notLength known isKnown) letter
        isLetter isSame

theorem Foreign.not_mem_of_isExplicit
    {mark : Char}
    (isForeign : Foreign mark)
    (explicit : Duration.isExplicit chars = true) :
    mark ∉ chars := by
  obtain ⟨numeral, unit, isNumeral, isUnit, rfl⟩ :=
    Duration.exists_numeral_of_isExplicit explicit
  rw [List.mem_append, not_or]
  refine ⟨isForeign.not_mem_of_numeral isNumeral,
    fun inUnit => isForeign.notTime ?_⟩
  rcases List.mem_pair.mp isUnit with rfl | rfl
  · exact inUnit
  · exact List.mem_cons_of_mem _ inUnit

/-- A plain scalar is neither a function nor a list nor a step. -/
theorem not_mem_of_mem_marks
    (plain : PlainScalar chars)
    {mark : Char}
    (isMark : mark ∈ ['(', ',', ':', '#']) :
    mark ∉ chars := by
  have isForeign : Foreign mark :=
    foreign_of_mem (List.mem_append_left ['i'] isMark)
  cases plain with
  | length isLength => exact isForeign.not_mem_of_hasUnit isLength
  | number isNumber =>
      exact isForeign.not_mem_of_numeral (numeral_of_isBareNumber isNumber)
  | duration explicit => exact isForeign.not_mem_of_isExplicit explicit
  | word isWord =>
      have apart : ['(', ',', ':', '#'].all (fun mark => decide (
          IsSettled mark ∧ ∀ word ∈ scalarWords, mark ∉ word.toList)) = true := by
        decide
      obtain ⟨settled, notInWords⟩ :=
        of_decide_eq_true (List.all_eq_true.mp apart mark isMark)
      exact not_mem_of_scalarWord isWord settled notInWords

/-- No plain scalar marks a shadow as an inner one. -/
theorem hasWholeWord_inset
    (plain : PlainScalar chars)
    (previous : Option Char) :
    hasWholeWord "inset".toList previous chars = false := by
  rw [← Bool.not_eq_true]
  intro isInset
  have letters : ∀ letter ∈ "inset".toList, letter ∈ chars :=
    fun letter isLetter => mem_of_hasWholeWord isInset isLetter
  have first : 'i' ∈ chars := letters 'i' (by decide)
  have isForeign : Foreign 'i' := foreign_of_mem (by decide)
  cases plain with
  | length isLength => exact isForeign.not_mem_of_hasUnit isLength first
  | number isNumber =>
      exact isForeign.not_mem_of_numeral (numeral_of_isBareNumber isNumber) first
  | duration explicit => exact isForeign.not_mem_of_isExplicit explicit first
  | word isWord =>
      have settled : "inset".toList.all (fun letter => decide (IsSettled letter)) =
          true := by
        decide
      have someMissing : ∀ word ∈ scalarWords,
          "inset".toList.all word.toList.contains = false := by
        decide
      have noneMissing :
          "inset".toList.all (String.ofList (lowerChars chars)).toList.contains =
            true := by
        refine List.all_eq_true.mpr (fun letter isLetter => ?_)
        have isSettled :=
          of_decide_eq_true (List.all_eq_true.mp settled letter isLetter)
        rw [String.toList_ofList, List.contains_iff_mem]
        exact isSettled.mem_lowerFrom (letters letter isLetter) []
      cases noneMissing.symm.trans (someMissing _ isWord)

/-- A word among the plain scalars holds no digit. -/
theorem not_isDecimal_of_word
    (isWord : String.ofList (lowerChars chars) ∈ scalarWords)
    {c : Char}
    (isChar : c ∈ chars) :
    isDecimal c = false := by
  rw [← Bool.not_eq_true]
  intro decimal
  refine not_mem_of_scalarWord isWord
    (isSettled_of_isDigitLike (Number.isDigitLike_of_isDecimal decimal)) ?_ isChar
  intro word isWord isInWord
  cases decimal.symm.trans (clean_scalarWords word isWord c isInWord).2

/-- A word among the plain scalars holds no blank. -/
theorem not_isBlank_of_word
    (isWord : String.ofList (lowerChars chars) ∈ scalarWords)
    {c : Char}
    (isChar : c ∈ chars) :
    isBlank c = false := by
  rw [← Bool.not_eq_true]
  intro blank
  refine not_mem_of_scalarWord isWord (isSettled_of_isBlank blank) ?_ isChar
  intro word isWord isInWord
  cases blank.symm.trans (clean_scalarWords word isWord c isInWord).1

/-- Only in front of a unit of length is there a blank in a plain scalar. -/
theorem not_isBlank_of_mem
    (plain : PlainScalar chars)
    (notLength : Dimension.hasUnit chars = false)
    {c : Char}
    (isChar : c ∈ chars) :
    isBlank c = false := by
  have inNumeral
      {numeral : List Char}
      (isNumeral : Number.Numeral numeral)
      (isMember : c ∈ numeral) :
      isBlank c = false :=
    Number.not_isBlank_of_isNumeralChar (isNumeral.isNumeralChar c isMember)
  cases plain with
  | length isLength => cases isLength.symm.trans notLength
  | number isNumber => exact inNumeral (numeral_of_isBareNumber isNumber) isChar
  | duration explicit =>
      obtain ⟨numeral, unit, isNumeral, isUnit, rfl⟩ :=
        Duration.exists_numeral_of_isExplicit explicit
      have inked : ∀ unit ∈ [['m', 's'], ['s']], unit.any isBlank = false := by
        decide
      rcases List.mem_append.mp isChar with isMember | inUnit
      · exact inNumeral isNumeral isMember
      · exact eq_false_of_ne_true
          (List.any_eq_false.mp (inked unit isUnit) c inUnit)
  | word isWord => exact not_isBlank_of_word isWord isChar

/-- The characters of a unit of length are no digits. -/
theorem not_isDecimal_of_isUnit
    {unit : List Char}
    (isUnit : Dimension.isUnit unit = true)
    {c : Char}
    (isChar : c ∈ unit) :
    isDecimal c = false := by
  have notDigits :
      ∀ known ∈ Dimension.units, known.toList.any isDigitLike = false := by
    decide
  obtain ⟨known, isKnown, letter, isLetter, isSame⟩ :=
    Dimension.exists_letter_of_isUnit isUnit isChar
  rw [← Bool.not_eq_true]
  intro decimal
  have notDigit := List.any_eq_false.mp (notDigits known isKnown) letter isLetter
  have differs := sameLetter_of_isDigitLike
    (Number.isDigitLike_of_isDecimal decimal)
    (eq_false_of_ne_true notDigit)
  cases isSame.symm.trans differs

/-- Behind a blank there is no digit in a plain scalar. -/
theorem noDigit_behind_blank
    (plain : PlainScalar chars) :
    chars.Pairwise
      (fun earlier later => isBlank earlier = true → isDecimal later = false) := by
  by_cases isLength : Dimension.hasUnit chars = true
  · obtain ⟨numeral, rest, isNumeral, unit, rfl⟩ :=
      Dimension.exists_numeral_of_hasUnit isLength
    have inked : ∀ c ∈ numeral, isBlank c ≠ true := by
      intro c isChar
      simp [Number.not_isBlank_of_isNumeralChar (isNumeral.isNumeralChar c isChar)]
    have noDigit : ∀ c ∈ rest, isDecimal c = false := by
      intro c isChar
      rw [← List.takeWhile_append_dropWhile (p := isBlank) (l := rest)] at isChar
      rcases List.mem_append.mp isChar with isSkipped | inUnit
      · rw [← Bool.not_eq_true]
        intro decimal
        have isInk :=
          not_isBlank_of_isDigitLike (Number.isDigitLike_of_isDecimal decimal)
        cases isInk.symm.trans (List.mem_takeWhile_imp isSkipped)
      · exact not_isDecimal_of_isUnit unit inUnit
    rw [List.pairwise_append]
    refine ⟨?_, ?_, ?_⟩
    · exact List.pairwise_of_forall_mem_list
        (fun c isChar _ _ blank => (inked c isChar blank).elim)
    · exact List.pairwise_of_forall_mem_list
        (fun _ _ c isChar _ => noDigit c isChar)
    · exact fun _ _ c isChar _ => noDigit c isChar
  · rw [Bool.not_eq_true] at isLength
    refine List.pairwise_of_forall_mem_list (fun c isChar _ _ blank => ?_)
    cases blank.symm.trans (plain.not_isBlank_of_mem isLength isChar)

end PlainScalar

namespace Handler

/--
A color with a value is claimed as a color, unless it is a name where a
font may be meant.
-/
theorem detectsColor_of_parse
    {context : CompactContext}
    {color : Color}
    (isColor : Color.parse context.value = .ok (some color)) :
    detectsColor context = .ok true ∨
      (Wire.has (lower (trim context.value)) Color.named = true ∧
        context.pathHas ["weight", "font"] = true) := by
  unfold detectsColor
  simp only [context.ofList_lowerChars_stripped]
  cases Color.form_of_parse isColor with
  | hex digits isForm allHex isHex =>
      have startsHex : startsWith ['#'] (lower (trim context.value)).toList =
          true := by
        rw [Color.lowerChars_of_parseHex isForm allHex]
        rfl
      rw [if_pos startsHex, Color.containsText_gradient_of_hex isForm allHex,
        if_neg Bool.false_ne_true]
      exact .inl (Color.parse_lower_trim_of_hex isForm allHex isHex)
  | function name isFunction starts =>
      have noHash := Color.not_startsWith_hash_of_function isFunction starts
      have startsOne :
          startsWithAny ["rgb", "hsl", "oklch"]
            (lower (trim context.value)).toList = true :=
        List.any_eq_true.mpr ⟨name, isFunction, starts⟩
      rw [noHash, if_neg Bool.false_ne_true, if_pos startsOne,
        Color.parse_lower_trim_of_function isFunction starts, isColor]
      exact .inl rfl
  | name isNamed =>
      obtain ⟨known, isKnown⟩ := Option.isSome_iff_exists.mp isNamed
      have otherStarts :
          ∀ entry ∈ Color.named, startsWith ['#'] entry.1.toList = false ∧
            startsWithAny ["rgb", "hsl", "oklch"] entry.1.toList = false := by
        have each :
            Color.named.all
              (fun entry => !startsWith ['#'] entry.1.toList &&
                !startsWithAny ["rgb", "hsl", "oklch"] entry.1.toList) = true := by
          decide
        intro entry isEntry
        simpa using List.all_eq_true.mp each entry isEntry
      obtain ⟨noHash, noFunction⟩ := otherStarts _ (mem_of_lookup? isKnown)
      rw [noHash, noFunction, isNamed]
      by_cases hinted : context.pathHas ["weight", "font"] = true
      · exact .inr ⟨rfl, hinted⟩
      · refine .inl ?_
        simp [hinted]

end Handler

/-- What is not claimed as a length has no unit of length. -/
theorem Handler.hasUnit_of_not_detectsDimension
    {context : CompactContext}
    (declined : detectsDimension context = false) :
    Dimension.hasUnit context.stripped = false := by
  unfold detectsDimension at declined
  simp only at declined
  split at declined
  · rename_i isNumber
    unfold isBareNumber at isNumber
    split at isNumber
    · rename_i rest scanned
      rw [List.isEmpty_iff] at isNumber
      rw [Dimension.hasUnit, Dimension.scan?, scanned, isNumber]
      rfl
    · cases isNumber
  · exact declined

/-- The name of a color is a plain scalar. -/
theorem PlainScalar.of_named
    {text : String}
    (isNamed : Wire.has (lower (trim text)) Color.named = true) :
    PlainScalar (trimChars text.toList) := by
  obtain ⟨known, isKnown⟩ := Option.isSome_iff_exists.mp isNamed
  have isEntry := mem_of_lookup? isKnown
  refine .word ?_
  rw [← toList_trim, ← lower, scalarWords, List.mem_append]
  exact .inl (List.mem_map.mpr ⟨_, isEntry, rfl⟩)

/-- A scalar is a plain one or a color with a value. -/
theorem ScalarText.plain_or_color
    {text : String}
    (scalar : ScalarText text) :
    PlainScalar (trimChars text.toList) ∨
      ∃ color, Color.parse text = .ok (some color) := by
  cases scalar with
  | color color isColor => exact .inr ⟨color, isColor⟩
  | length isLength => exact .inl (.length isLength)
  | number isNumber => exact .inl (.number isNumber)
  | duration explicit => exact .inl (.duration explicit)
  | truth isTruth =>
      refine .inl (.word ?_)
      rw [scalarWords, List.mem_append]
      right
      unfold Handler.truthOf? at isTruth
      simp only at isTruth
      split at isTruth
      · rename_i isTrue
        rw [isTrue]
        exact List.mem_cons_self
      · split at isTruth
        · rename_i isFalse
          rw [isFalse]
          exact List.mem_cons_of_mem _ List.mem_cons_self
        · cases isTruth

/-- A scalar that is not claimed as a color is a plain one. -/
theorem ScalarText.plain
    {context : CompactContext}
    (scalar : ScalarText context.value)
    (noColor : Handler.detectsColor context = .ok false) :
    PlainScalar context.stripped := by
  rcases scalar.plain_or_color with plain | ⟨color, isColor⟩
  · exact plain
  · rcases Handler.detectsColor_of_parse isColor with claimed | ⟨isNamed, _⟩
    · cases claimed.symm.trans noColor
    · exact PlainScalar.of_named isNamed

/-- A scalar stays one when it is trimmed. -/
theorem ScalarText.trim
    {text : String}
    (scalar : ScalarText text) :
    ScalarText (Text.trim text) := by
  cases scalar with
  | color color isColor =>
      exact .color color ((Color.parse_trim text).trans isColor)
  | length isLength =>
      refine .length ?_
      rwa [toList_trim, trimChars_trimChars]
  | number isNumber =>
      refine .number ?_
      rwa [isNumberText, toList_trim, trimChars_trimChars]
  | duration explicit =>
      refine .duration ?_
      rwa [toList_trim, trimChars_trimChars]
  | truth isTruth =>
      refine .truth ?_
      rwa [Handler.truthOf?, toList_trim, trimChars_trimChars]

/--
A word among the plain scalars is none of some words that have other
lowercase forms.
-/
theorem PlainScalar.not_mem_of_word
    {chars : List Char}
    (isWord : String.ofList (lowerChars chars) ∈ scalarWords)
    (others : List String)
    (disjoint : ∀ other ∈ others, lower other ∉ scalarWords) :
    String.ofList chars ∉ others := by
  intro isOther
  apply disjoint _ isOther
  rwa [lower, String.toList_ofList]

/-- A word among the plain scalars is not digit-like. -/
theorem PlainScalar.not_allDigitLike_of_word
    {chars : List Char}
    (isWord : String.ofList (lowerChars chars) ∈ scalarWords) :
    allDigitLike chars = false := by
  have noDigits : ∀ word ∈ scalarWords, allDigitLike word.toList = false := by
    decide
  rw [← Bool.not_eq_true]
  intro digits
  have inLower := noDigits _ isWord
  rw [String.toList_ofList, allDigitLike_lowerChars (.inr digits)] at inLower
  cases digits.symm.trans inLower

/-- Only a number is a digit-like plain scalar. -/
theorem PlainScalar.isBareNumber_of_digits
    {chars : List Char}
    (plain : PlainScalar chars)
    (digitLike : allDigitLike chars = true) :
    isBareNumber chars = true := by
  have digits := List.all_eq_true.mp (Bool.and_eq_true_iff.mp digitLike).2
  cases plain with
  | length isLength =>
      cases isLength.symm.trans (Dimension.hasUnit_of_digits digits)
  | number isNumber => exact isNumber
  | duration explicit =>
      cases explicit.symm.trans (Duration.isExplicit_of_digits digits)
  | word isWord => cases digitLike.symm.trans (not_allDigitLike_of_word isWord)

/-- Read as an animation, a word is the name of one. -/
theorem PlainScalar.addWord_of_word
    {chars : List Char}
    (isWord : String.ofList (lowerChars chars) ∈ scalarWords)
    {found : Animation.Found}
    (unnamed : found.name = "") :
    found.addWord chars = .ok { found with name := String.ofList chars } := by
  have notExplicit : Duration.isExplicit chars = false := by
    rw [← Bool.not_eq_true]
    intro explicit
    obtain ⟨c, isChar, decimal⟩ := Duration.exists_decimal_of_isExplicit explicit
    cases decimal.symm.trans (not_isDecimal_of_word isWord isChar)
  have fits : Animation.FitsNowhere chars :=
    ⟨notExplicit, not_allDigitLike_of_word isWord,
      not_mem_of_word isWord Animation.slotWords (by decide)⟩
  have noKeyword := not_mem_of_word isWord Timing.keywords (by decide)
  rw [Animation.addWord_of_fitsNowhere fits
    (fun isListed => (noKeyword isListed).elim), if_pos unnamed]

end DesignTokens
