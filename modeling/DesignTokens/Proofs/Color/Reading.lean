import DesignTokens.Color.Reader
import DesignTokens.Proofs.Reading
import DesignTokens.Proofs.Text.Digits
import DesignTokens.Proofs.Wire.Members

namespace DesignTokens

/-!
# Reading colors without a fault

Reading a color ends with a fault for one kind of text only: a written `oklch`
color whose hue is beyond the doubles.  Case and blanks around the text make no
difference.
-/

open DesignTokens.Text

namespace Text

/--
A text begins with one of two beginnings only when the first
characters of both agree.
-/
theorem not_startsWith_of_head_ne
    {first second : Char}
    (differs : first ≠ second)
    {restFirst restSecond chars : List Char}
    (starts : startsWith (first :: restFirst) chars = true) :
    startsWith (second :: restSecond) chars = false := by
  cases chars with
  | nil => rfl
  | cons c rest =>
      have isFirst : first = c := by
        simp only [startsWith, List.isPrefixOf, Bool.and_eq_true,
          beq_iff_eq] at starts
        exact starts.1
      simp [startsWith, List.isPrefixOf, ← isFirst, differs.symm]

/-- A text keeps a settled character at its front when it is lowercased. -/
theorem startsWith_lowerChars
    {c : Char}
    (settled : IsSettled c)
    {chars : List Char}
    (starts : startsWith [c] chars = true) :
    startsWith [c] (lowerChars chars) = true := by
  cases chars with
  | nil => cases starts
  | cons first rest =>
      obtain rfl : c = first := by simpa [startsWith, List.isPrefixOf] using starts
      rw [lowerChars, lowerFrom, settled.lowerInContext_eq]
      simp [startsWith, List.isPrefixOf]

end Text

namespace Color

/-- A text is written as an `oklch` color with an infinite hue. -/
def Overflows (text : String) : Prop :=
  startsWith "oklch".toList (lower (trim text)).toList = true ∧
    ∃ written,
      scanOklch? (lower (trim text)) = some written ∧
        (radians written.hue).isInf = true

/-- Whether a color overflows does not depend on case and on blanks around it. -/
theorem overflows_lower_trim_iff
    {text : String} :
    Overflows (lower (trim text)) ↔ Overflows text := by
  rw [Overflows, lower_trim_lower_trim, Overflows]

/-- Whether a color overflows does not depend on blanks around it. -/
theorem overflows_trim_iff
    {text : String} :
    Overflows (trim text) ↔ Overflows text := by
  rw [Overflows, trim_trim, Overflows]

/-- A written `oklch` color is read unless its hue is infinite. -/
theorem succeeds_parseOklch_iff
    {text : String} :
    Succeeds (parseOklch text) ↔
      ¬ ∃ written, scanOklch? text = some written ∧
        (radians written.hue).isInf = true := by
  unfold parseOklch
  cases scanned : scanOklch? text with
  | none => simp
  | some written =>
      by_cases infinite : (radians written.hue).isInf = true
      · simp [infinite]
      · simp [infinite]

/-- A text is read as a color, or found to be none, unless it overflows. -/
theorem succeeds_parse_iff
    {text : String} :
    Succeeds (parse text) ↔ ¬ Overflows text := by
  have notOklch : startsWith "oklch".toList (lower (trim text)).toList = false →
      ¬ Overflows text := by
    intro isOther overflows
    cases isOther.symm.trans overflows.1
  unfold parse
  simp only
  split
  · rename_i isEmpty
    refine iff_of_true (succeeds_ok _) (notOklch ?_)
    rw [isEmpty]
    rfl
  · split
    · rename_i isHex
      have lowerIsHex : startsWith ['#'] (lower (trim text)).toList = true := by
        rw [lower, String.toList_ofList]
        exact startsWith_lowerChars (by constructor <;> decide) isHex
      exact iff_of_true (succeeds_ok _)
        (notOklch (not_startsWith_of_head_ne (by decide) lowerIsHex))
    · split
      · rename_i isRgb
        exact iff_of_true (succeeds_ok _)
          (notOklch (not_startsWith_of_head_ne (by decide) isRgb))
      · split
        · rename_i isHsl
          exact iff_of_true (succeeds_ok _)
            (notOklch (not_startsWith_of_head_ne (by decide) isHsl))
        · split
          · rename_i isOklch
            rw [succeeds_parseOklch_iff]
            exact not_congr ⟨fun infinite => ⟨isOklch, infinite⟩, And.right⟩
          · rename_i isOther
            exact iff_of_true (succeeds_ok _) (notOklch (by simpa using isOther))

/-- Whether a text is a color can be told unless it overflows. -/
theorem succeeds_isColorText_iff
    {text : String} :
    Succeeds (isColorText text) ↔ ¬ Overflows text := by
  unfold isColorText
  by_cases isKeyword : keywords.contains (lower (trim text)) = true
  · have notOklch :
        ∀ keyword ∈ keywords, startsWith "oklch".toList keyword.toList = false := by
      decide
    rw [if_pos isKeyword]
    refine iff_of_true (succeeds_pure _) (fun overflows => ?_)
    cases (notOklch _ (by simpa using isKeyword)).symm.trans overflows.1
  · simp only [isKeyword, Bool.false_eq_true, if_false]
    rw [succeeds_bind_pure_iff, succeeds_parse_iff,
      overflows_lower_trim_iff]

/-- Digit-like characters make up no color that can be read. -/
theorem parse_of_digits
    {text : String}
    (digits : allDigitLike (trim text).toList = true) :
    parse text = .ok none := by
  have isThere : trim text ≠ "" := by
    intro isEmpty
    rw [isEmpty] at digits
    cases digits
  have lowered : lower (trim text) = trim text := by
    rw [lower, allDigitLike_lowerChars (.inr digits), String.ofList_toList]
  have noName : Wire.lookup? (trim text) named = none := by
    rw [Wire.lookup?_eq_none_iff]
    exact not_mem_of_digits digits (by decide)
  have noHex : startsWith ['#'] (trim text).toList = false :=
    startsWith_of_digits digits (by decide) []
  have noRgb : startsWith "rgb".toList (trim text).toList = false :=
    startsWith_of_digits digits (by decide) ['g', 'b']
  have noHsl : startsWith "hsl".toList (trim text).toList = false :=
    startsWith_of_digits digits (by decide) ['s', 'l']
  have noOklch : startsWith "oklch".toList (trim text).toList = false :=
    startsWith_of_digits digits (by decide) ['k', 'l', 'c', 'h']
  simp only [parse, lowered, parseNamed, trim_trim, noName, if_neg isThere, noHex,
    noRgb, noHsl, noOklch, Bool.false_eq_true, if_false]

/-- Digit-like characters make up no color. -/
theorem isColorText_of_digits
    {text : String}
    (digits : allDigitLike (trim text).toList = true) :
    isColorText text = .ok false := by
  have lowered : lower (trim text) = trim text := by
    rw [lower, allDigitLike_lowerChars (.inr digits), String.ofList_toList]
  have noKeyword : trim text ∉ keywords :=
    not_mem_of_digits digits (by decide)
  have noColor : parse (trim text) = .ok none :=
    parse_of_digits (by rwa [trim_trim])
  simp [isColorText, lowered, noKeyword, noColor, pure, Except.pure]

end Color

end DesignTokens
