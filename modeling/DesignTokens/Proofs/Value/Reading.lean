import DesignTokens.Proofs.Color.Reading
import DesignTokens.Proofs.Value.Numerals
import DesignTokens.Source.Stylesheet.Naming
import DesignTokens.Value.Gradient
import DesignTokens.Theme.Lookup
import DesignTokens.Value.Animation

namespace DesignTokens

/-!
# Reading values without a fault

For each type of value, the texts whose reading ends with a fault.  A reading
looks at the candidates for a color or a numeral one after the other, so the
faults are those of the candidates that are reached.

A text of digit-like characters is no color, no length with a unit, no time
span, no font stack and no gradient.  Whatever such a text is read as, the
question whether it is a font weight is asked, and only a numeral answers it.
-/

open DesignTokens.Text

/-! Digit-like texts. -/

/-- A digit-like text is no time span. -/
theorem Duration.isExplicit_of_digits
    {chars : List Char}
    (digits : ∀ c ∈ chars, isDigitLike c = true) :
    isExplicit chars = false := by
  rw [← Bool.not_eq_true]
  intro explicit
  exact ne_of_isDigitLike (digits _ (mem_of_isExplicit explicit)) (by decide) rfl

namespace Dimension

theorem sameWord_of_digits
    {chars : List Char}
    (digits : ∀ c ∈ chars, isDigitLike c = true)
    {first : Char}
    (isLetter : isDigitLike first = false)
    (more : List Char) :
    sameWord chars (first :: more) = false := by
  cases chars with
  | nil => rfl
  | cons c rest =>
      have differs := sameLetter_of_isDigitLike (digits c (by simp)) isLetter
      simp [sameWord, differs]

theorem isUnit_of_digits
    {chars : List Char}
    (digits : ∀ c ∈ chars, isDigitLike c = true) :
    isUnit chars = false := by
  rw [isUnit, List.any_eq_false]
  intro unit isUnit
  simp only [units, List.mem_cons, List.not_mem_nil, or_false] at isUnit
  rw [Bool.not_eq_true]
  rcases isUnit with rfl | rfl | rfl | rfl | rfl | rfl | rfl | rfl | rfl
  all_goals exact sameWord_of_digits digits (by decide) _

/-- A digit-like text is no length with a unit. -/
theorem hasUnit_of_digits
    {chars : List Char}
    (digits : ∀ c ∈ chars, isDigitLike c = true) :
    hasUnit chars = false := by
  rw [← Bool.not_eq_true]
  intro isLength
  obtain ⟨numeral, rest, _, unit, rfl⟩ := exists_numeral_of_hasUnit isLength
  have isEnd : skipBlank rest <:+ rest := List.dropWhile_suffix isBlank
  have digitsLeft : ∀ c ∈ skipBlank rest, isDigitLike c = true :=
    fun c isMember => digits c (List.mem_append_right _ (isEnd.subset isMember))
  cases unit.symm.trans (isUnit_of_digits digitsLeft)

end Dimension

/-- A digit-like text is no font stack. -/
theorem Stylesheet.isFontStack_of_digits
    {chars : List Char}
    (digits : ∀ c ∈ chars, isDigitLike c = true) :
    isFontStack chars = false := by
  have noMark : ∀ mark, isDigitLike mark = false → mark ∉ chars := by
    intro mark isMark isMember
    exact ne_of_isDigitLike (digits mark isMember) isMark rfl
  unfold isFontStack
  split
  · exact (noMark '\'' (by decide) (by simp)).elim
  · exact (noMark '"' (by decide) (by simp)).elim
  · have noComma := noMark ',' (by decide)
    simp [noComma]

/-- A digit-like text is no gradient function. -/
theorem Gradient.startsLikeGradient_of_digits
    {chars : List Char}
    (digits : ∀ c ∈ chars, isDigitLike c = true) :
    startsLikeGradient chars = false := by
  have noWord : ∀ first more, isDigitLike first = false →
      scanWord? (first :: more) chars = none := by
    intro first more isLetter
    cases chars with
    | nil => rfl
    | cons c rest =>
        simp [scanWord?, sameLetter_of_isDigitLike (digits c (by simp)) isLetter]
  have noName : scanName? chars = none := by
    rw [scanName?, List.findSome?_eq_none_iff]
    intro type isType
    simp only [types, List.mem_cons, List.not_mem_nil, or_false] at isType
    have noType : scanWord? type.toList chars = none := by
      rcases isType with rfl | rfl | rfl
      all_goals exact noWord _ _ (by decide)
    rw [noType]
    rfl
  rw [startsLikeGradient, noName]
  rfl

/-! Readings with a fault, type by type. -/

namespace FontWeight

/--
Whether a text is a font weight can be told unless it is
digit-like and no numeral.
-/
theorem succeeds_isWeightText_iff
    {text : String} :
    Succeeds (isWeightText text) ↔ ¬ NoNumeral (trimChars text.toList) := by
  unfold isWeightText
  by_cases digits : allDigitLike (lowerChars (trimChars text.toList)) = true
  · have kept := allDigitLike_lowerChars (.inl digits)
    rw [kept] at digits
    simp only [kept, digits, if_true]
    rw [← Number.readInt?_eq_none_iff digits]
    cases Number.readInt? (String.ofList (trimChars text.toList)) <;> simp
  · simp only [digits, Bool.false_eq_true, if_false]
    refine iff_of_true (succeeds_ok _) (fun noNumeral => digits ?_)
    rw [allDigitLike_lowerChars (.inr noNumeral.digitLike)]
    exact noNumeral.digitLike

/--
A text holds a number next to a separator, once hyphens and spaces are left
out.
-/
def HasSeparatedNumber (text : String) : Prop :=
  (bareNumber? (plainText text)).isSome = true ∧
    (plainText text).toList.any isSeparator = true

/--
A text is read as a weight, or found to be none, unless it holds a
separated number.
-/
theorem succeeds_parse_iff
    {text : String} :
    Succeeds (parse (.str text)) ↔ ¬ HasSeparatedNumber text := by
  have isPlain : parse (.str text) = ofPlainText (plainText text) := rfl
  rw [isPlain, ofPlainText, HasSeparatedNumber]
  cases bareNumber? (plainText text) with
  | none => simp
  | some number =>
      by_cases separated : (plainText text).toList.any isSeparator = true
      · simp [separated]
      · simp [separated]

theorem clean_of_mem_keywords :
    ∀ keyword ∈ keywords, ∀ c ∈ keyword.1.toList, isSeparator c = false := by
  intro keyword isKeyword c isMember
  have clean : keywords.all (fun one => !one.1.toList.any isSeparator) = true := by
    decide
  have cleanKeyword := List.all_eq_true.mp clean keyword isKeyword
  rw [Bool.not_eq_true', List.any_eq_false] at cleanKeyword
  simpa using cleanKeyword c isMember

/-- What has been found to be a font weight is read as one. -/
theorem succeeds_parse_of_isWeightText
    {text : String}
    (isWeight : isWeightText text = .ok true) :
    Succeeds (parse (.str text)) := by
  rw [succeeds_parse_iff]
  rintro ⟨_, separated⟩
  obtain ⟨c, isMember, isSeparated⟩ := List.any_eq_true.mp separated
  rw [plainText, String.toList_ofList, List.mem_filter] at isMember
  obtain ⟨isLower, isKept⟩ := isMember
  unfold isWeightText at isWeight
  simp only at isWeight
  split at isWeight
  · rename_i digits
    have isDigit := List.all_eq_true.mp (Bool.and_eq_true_iff.mp digits).2 c isLower
    cases (isBlank_of_isSeparator isSeparated).symm.trans
      (not_isBlank_of_isDigitLike isDigit)
  · -- Without hyphens the text is a keyword, so there is no separator in it.
    obtain ⟨weight, isThere⟩ := Option.isSome_iff_exists.mp (Except.ok.inj isWeight)
    have isInKeyword :
        c ∈
          (String.ofList
            ((lowerChars (trimChars text.toList)).filter (· != '-'))).toList := by
      rw [String.toList_ofList, List.mem_filter]
      exact ⟨isLower, (Bool.and_eq_true_iff.mp isKept).1⟩
    have clean := clean_of_mem_keywords _ (mem_of_lookup? isThere) c isInKeyword
    cases isSeparated.symm.trans clean

end FontWeight

namespace Typography

/--
A text style names as its weight a number next to a separator, and its
lengths are numbers.
-/
def HasSeparatedWeight (raw : String) : Prop :=
  ∃ body lengths text,
    constructorBody? raw "Font" = some body ∧
      lengthsOf? (parsePairs body) = some lengths ∧
      Wire.lookup? "weight" (parsePairs body) = some (.text text) ∧
      FontWeight.HasSeparatedNumber text

/--
The weight among named parts is read unless it is a text with a
separated number.
-/
theorem succeeds_weightOf_iff
    {pairs : List (String × PairValue)} :
    Succeeds (weightOf pairs) ↔
      ∀ text, Wire.lookup? "weight" pairs = some (.text text) →
        ¬ FontWeight.HasSeparatedNumber text := by
  unfold weightOf
  cases Wire.lookup? "weight" pairs with
  | none => simp
  | some value =>
      cases value with
      | number value =>
          have reads :
              Succeeds (FontWeight.parse (PairValue.number value).encode) :=
                ⟨_, rfl⟩
          simp [reads]
      | text value =>
          have isText : (PairValue.text value).encode = .str value := rfl
          simp only [isText, FontWeight.succeeds_parse_iff]
          simp

/--
A text style is read, or found to be none, unless its weight is a
separated number.
-/
theorem succeeds_parse_iff
    {raw : String} :
    Succeeds (parse raw) ↔ ¬ HasSeparatedWeight raw := by
  unfold parse HasSeparatedWeight
  cases constructorBody? raw "Font" with
  | none => simp
  | some body =>
      cases isLengths : lengthsOf? (parsePairs body) with
      | none => simp [isLengths]
      | some lengths => simp [isLengths, succeeds_weightOf_iff]

end Typography

namespace Gradient

/-- The stops are read when no candidate is a color that overflows. -/
theorem succeeds_stopsOf_iff
    {candidates : List (Match (List Char × Option Float))}
    (found : List GradientStop) :
    Succeeds (stopsOf found candidates) ↔
      ∀ candidate ∈ candidates,
        ¬ Color.Overflows (String.ofList candidate.found.1) := by
  induction candidates generalizing found with
  | nil => simp [stopsOf]
  | cons candidate rest inductionHypothesis =>
      rw [stopsOf, succeeds_bind_iff,
        List.forall_mem_cons, ← Color.succeeds_parse_iff]
      constructor
      · rintro ⟨color?, isRead, restRead⟩
        refine ⟨⟨color?, isRead⟩, ?_⟩
        cases color? with
        | none => exact (inductionHypothesis _).mp restRead
        | some color => exact (inductionHypothesis _).mp restRead
      · rintro ⟨⟨color?, isRead⟩, restFits⟩
        refine ⟨color?, isRead, ?_⟩
        cases color? with
        | none => exact (inductionHypothesis _).mpr restFits
        | some color => exact (inductionHypothesis _).mpr restFits

/-- The part of a gradient function that holds its stops. -/
def stopText? (raw : String) : Option (List Char) :=
  match scanName? (trimChars raw.toList) with
  | none => none
  | some (name, rest) =>
      if (trimChars raw.toList).getLast? ≠ some ')' then none
      else
        let content := trimChars rest.dropLast
        some (if String.ofList (lowerChars name) = "linear" then
          (takeAngle content).2 else content)

/-- One of the possible colors of a gradient function is a color that overflows. -/
def HasOverflow (raw : String) : Prop :=
  ∃ content candidate,
    stopText? raw = some content ∧
      candidate ∈ findAll scanStop? content ∧
      Color.Overflows (String.ofList candidate.found.1)

/--
A gradient is read, or found to be none, unless one of its possible
colors overflows.
-/
theorem succeeds_parse_iff
    {raw : String} :
    Succeeds (parse raw) ↔ ¬ HasOverflow raw := by
  unfold parse HasOverflow stopText?
  cases isNamed : scanName? (trimChars raw.toList) with
  | none => simp [isNamed]
  | some found =>
      obtain ⟨name, rest⟩ := found
      by_cases isOpen : (trimChars raw.toList).getLast? ≠ some ')'
      · simp [isNamed, isOpen]
      · simp only [isNamed, isOpen, if_false]
        rw [succeeds_bind_of_total, succeeds_stopsOf_iff]
        · by_cases isLinear : String.ofList (lowerChars name) = "linear"
          · simp [isLinear]
          · simp [isLinear]
        · intro stops
          split <;> exact succeeds_pure _

end Gradient

namespace Shadow

/-- Among possible colors, one that overflows comes before any that is a color. -/
def OverflowsFirst (candidates : List (Match (List Char))) : Prop :=
  ∃ before candidate after,
    candidates = before ++ candidate :: after ∧
      (∀ earlier ∈ before, Color.parse (String.ofList earlier.found) = .ok none) ∧
      Color.Overflows (String.ofList candidate.found)

/--
An overflow comes first when the first candidate overflows, or is no color
and one follows.
-/
theorem overflowsFirst_cons_iff
    {candidate : Match (List Char)}
    {rest : List (Match (List Char))} :
    OverflowsFirst (candidate :: rest) ↔
      Color.Overflows (String.ofList candidate.found) ∨
        (Color.parse (String.ofList candidate.found) = .ok none ∧
          OverflowsFirst rest) := by
  constructor
  · rintro ⟨before, other, after, shape, noColors, overflows⟩
    cases before with
    | nil =>
        cases shape
        exact .inl overflows
    | cons first more =>
        cases shape
        refine .inr ⟨noColors candidate (by simp), more, other, after, rfl, ?_,
          overflows⟩
        exact fun earlier isEarlier =>
          noColors earlier (List.mem_cons_of_mem _ isEarlier)
  · rintro (overflows | ⟨noColor, before, other, after, rfl, noColors, overflows⟩)
    · exact ⟨[], candidate, rest, rfl, by simp, overflows⟩
    · exact ⟨candidate :: before, other, after, rfl,
        List.forall_mem_cons.mpr ⟨noColor, noColors⟩, overflows⟩

/-- The first color is found, or there is none, unless an overflow comes first. -/
theorem succeeds_firstColor_iff
    {candidates : List (Match (List Char))} :
    Succeeds (firstColor candidates) ↔ ¬ OverflowsFirst candidates := by
  induction candidates with
  | nil => simp [firstColor, OverflowsFirst]
  | cons candidate rest inductionHypothesis =>
      rw [firstColor, succeeds_bind_iff, overflowsFirst_cons_iff, not_or,
        ← Color.succeeds_parse_iff]
      constructor
      · rintro ⟨color?, isRead, restRead⟩
        refine ⟨⟨color?, isRead⟩, ?_⟩
        rintro ⟨noColor, overflows⟩
        cases isRead.symm.trans noColor
        exact inductionHypothesis.mp restRead overflows
      · rintro ⟨⟨color?, isRead⟩, restFits⟩
        refine ⟨color?, isRead, ?_⟩
        cases color? with
        -- A color ends the search, so only what follows a text without one is
        -- looked at.
        | none =>
            exact inductionHypothesis.mpr
              (fun overflows => restFits ⟨isRead, overflows⟩)
        | some color => exact succeeds_pure _

/-- A written layer without its inset mark. -/
def layerText (raw : String) : List Char :=
  let trimmed := trimChars raw.toList
  if hasWholeWord "inset".toList none trimmed then
    trimChars (dropWholeWord "inset".toList none trimmed)
  else trimmed

/-- A layer is read, or found to be none, unless an overflow comes first in it. -/
theorem succeeds_parseLayer_iff
    {raw : String} :
    Succeeds (parseLayer raw) ↔
      ¬ OverflowsFirst (findAll scanLayerColor? (layerText raw)) := by
  rw [← succeeds_firstColor_iff]
  refine succeeds_bind_of_total (fun color? => ?_)
  cases color?
  all_goals
    simp only
    split <;> exact succeeds_pure _

/-- One of the layers of a shadow has an overflow before any color. -/
def HasOverflow (raw : String) : Prop :=
  startsWith "Effect(".toList (trim raw).toList = false ∧
    ∃ piece ∈ splitLayers (trim raw),
      piece ≠ "" ∧ OverflowsFirst (findAll scanLayerColor? (layerText piece))

theorem succeeds_parseAll_iff
    {read : String → Except Fault (Option Shadow)}
    {pieces : List String} :
    Succeeds (parseAll read pieces) ↔ ∀ piece ∈ pieces, Succeeds (read piece) := by
  rw [parseAll, succeeds_bind_of_total, succeeds_mapM_iff]
  intro shadows
  split <;> exact succeeds_pure _

/-- A shadow is read, or found to be none, unless a layer has an overflow. -/
theorem succeeds_parse_iff
    {raw : String} :
    Succeeds (parse raw) ↔ ¬ HasOverflow raw := by
  unfold parse HasOverflow
  by_cases isEffect : startsWith "Effect(".toList (trim raw).toList = true
  · simp only [isEffect, if_true]
    rw [succeeds_parseAll_iff]
    simp
  · simp only [isEffect, Bool.false_eq_true, if_false]
    rw [succeeds_parseAll_iff]
    simp [succeeds_parseLayer_iff]

end Shadow

namespace Border

/-- The color of a border overflows. -/
def HasOverflow (raw : String) : Prop :=
  ∃ start colorText,
    scanStart? (trimChars raw.toList) = some (start, colorText) ∧
      isColorShape colorText = true ∧
      Color.Overflows (String.ofList colorText)

/-- A border is read, or found to be none, unless its color overflows. -/
theorem succeeds_parse_iff
    {raw : String} :
    Succeeds (parse raw) ↔ ¬ HasOverflow raw := by
  unfold parse HasOverflow
  cases scanStart? (trimChars raw.toList) with
  | none => simp
  | some found =>
      obtain ⟨start, colorText⟩ := found
      by_cases isColor : isColorShape colorText = true
      · simp only [isColor, Bool.not_true, Bool.false_eq_true, if_false]
        rw [succeeds_bind_pure_iff, Color.succeeds_parse_iff]
        simp [isColor]
      · simp [isColor]

end Border

namespace Animation

/-- A word is taken into account unless it is digit-like and no numeral. -/
theorem succeeds_addWord_iff
    (found : Found)
    (word : List Char) :
    Succeeds (found.addWord word) ↔ ¬ NoNumeral word := by
  by_cases noNumeral : NoNumeral word
  · have digits : allDigitLike (String.ofList word).toList = true := by
      rw [String.toList_ofList]
      exact noNumeral.digitLike
    -- The word is none of those that are tried before a count.
    have notExplicit :=
      Duration.isExplicit_of_digits (fun _ => noNumeral.isDigitLike_of_mem)
    have noKeyword : String.ofList word ∉ Timing.keywords :=
      not_mem_of_digits digits (by decide)
    have notInfinite : String.ofList word ∉ ["infinite"] :=
      not_mem_of_digits digits (by decide)
    rw [List.mem_singleton] at notInfinite
    have unreadable :=
      (Number.readInt?_eq_none_iff noNumeral.digitLike).mpr noNumeral
    refine iff_of_false ?_ (not_not_intro noNumeral)
    simp [Found.addWord, notExplicit, noKeyword, notInfinite, noNumeral.digitLike,
      unreadable]
  · refine iff_of_true ?_ noNumeral
    have readable (digits : allDigitLike word = true)
        (unreadable : Number.readInt? (String.ofList word) = none) : False :=
      noNumeral ((Number.readInt?_eq_none_iff digits).mp unreadable)
    unfold Found.addWord
    simp only
    repeat' split
    all_goals first
      | exact succeeds_ok _
      | exact (readable ‹_› ‹_›).elim

/-- One of the words of an animation is digit-like and no numeral. -/
def HasNoNumeral (raw : String) : Prop :=
  ∃ word ∈ words (takeCurve (trimChars raw.toList)).rest, NoNumeral word

/--
An animation is read, or found to be none, unless one of its
words is no numeral.
-/
theorem succeeds_parse_iff
    {raw : String} :
    Succeeds (parse raw) ↔ ¬ HasNoNumeral raw := by
  rw [parse, HasNoNumeral, succeeds_bind_of_total,
    succeeds_foldlM_iff succeeds_addWord_iff]
  · simp
  · intro found
    split <;> exact succeeds_pure _

end Animation

end DesignTokens
