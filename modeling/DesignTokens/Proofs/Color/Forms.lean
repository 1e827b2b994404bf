import DesignTokens.Proofs.Color.Reading
import DesignTokens.Proofs.Text.Search

namespace DesignTokens.Color

/-!
# Written forms of colors

A color with a value is written in hexadecimal digits, as a function, or by its
name.  Which of these a text is can be told from its lowercase form.
-/

open DesignTokens.Text

/-- The names of the color functions. -/
def functions : List String :=
  ["rgb", "hsl", "oklch"]

theorem toNat_lt_of_isHexDigit
    {c : Char}
    (isHex : isHexDigit c = true) :
    c.toNat < 128 := by
  unfold isHexDigit Reader.hexValue? at isHex
  split at isHex
  · rename_i isDigit
    exact Nat.lt_of_le_of_lt (Char.isDigit_iff_toNat.mp isDigit).2 (by decide)
  · split at isHex
    · rename_i isLetter
      have below : c.toNat ≤ 'f'.toNat := isLetter.2
      exact Nat.lt_of_le_of_lt below (by decide)
    · split at isHex
      · rename_i isCapital
        have below : c.toNat ≤ 'F'.toNat := isCapital.2
        exact Nat.lt_of_le_of_lt below (by decide)
      · cases isHex

/-- What is known of the first 128 characters that are hexadecimal digits. -/
theorem isHexDigit_cases
    {c : Char}
    (isHex : isHexDigit c = true) :
    c ≠ 'Σ' ∧ c ≠ 'İ' ∧ c ≠ ',' ∧ lowerChar c ≠ 'g' ∧
      isHexDigit (lowerChar c) = true := by
  have ofCode : isHexDigit c = true → c ≠ 'Σ' ∧ c ≠ 'İ' ∧ c ≠ ',' ∧
      lowerChar c ≠ 'g' ∧ isHexDigit (lowerChar c) = true :=
    of_toNat_lt (toNat_lt_of_isHexDigit isHex) (by decide)
  exact ofCode isHex

theorem not_isBlank_of_isHexDigit
    {c : Char}
    (isHex : isHexDigit c = true) :
    isBlank c = false := by
  have noBlank : isHexDigit c = true → isBlank c = false :=
    of_toNat_lt (toNat_lt_of_isHexDigit isHex) (by decide)
  exact noBlank isHex

/-- Hexadecimal digits are lowercased one by one. -/
theorem lowerFrom_of_isHexDigit
    {digits : List Char}
    (allHex : ∀ c ∈ digits, isHexDigit c = true)
    (before : List Char) :
    lowerFrom before digits = digits.map lowerChar := by
  induction digits generalizing before with
  | nil => rfl
  | cons c rest inductionHypothesis =>
      obtain ⟨isHex, restHex⟩ := List.forall_mem_cons.mp allHex
      obtain ⟨notSigma, notDotted, _⟩ := isHexDigit_cases isHex
      rw [lowerFrom, lowerInContext, if_neg notSigma, if_neg notDotted,
        inductionHypothesis restHex]
      rfl

/--
A text is a hexadecimal color when it is a hash mark and three, four, six
or eight digits.
-/
theorem isSome_parseHex_iff
    {text : String} :
    (parseHex text).isSome = true ↔
      ∃ digits, trimChars text.toList = '#' :: digits ∧
        (∀ c ∈ digits, isHexDigit c = true) ∧
        digits.length ∈ [3, 4, 6, 8] := by
  unfold parseHex
  constructor
  · intro isColor
    split at isColor
    · rename_i digits isForm
      refine ⟨digits, isForm, ?_⟩
      split at isColor
      · cases isColor
      · rename_i allHex
        rw [Bool.not_eq_true, Bool.not_eq_false', List.all_eq_true] at allHex
        refine ⟨allHex, ?_⟩
        split at isColor
        · simp
        · simp
        · simp
        · simp
        · cases isColor
    · cases isColor
  · rintro ⟨digits, isForm, allHex, isLength⟩
    have isAll : digits.all isHexDigit = true := List.all_eq_true.mpr allHex
    simp only [isForm, isAll, Bool.not_true, Bool.false_eq_true, if_false]
    match digits, isLength with
    | [_, _, _], _ => rfl
    | [_, _, _, _], _ => rfl
    | [_, _, _, _, _, _], _ => rfl
    | [_, _, _, _, _, _, _, _], _ => rfl

theorem trimChars_lower_trim
    (text : String) :
    trimChars (lower (trim text)).toList = lowerChars (trimChars text.toList) := by
  rw [lower, String.toList_ofList, toList_trim,
    (trimmed_trimChars text.toList).lowerChars.trimChars_eq]

theorem toList_lower_trim
    (text : String) :
    (lower (trim text)).toList = lowerChars (trimChars text.toList) := by
  rw [lower, String.toList_ofList, toList_trim]

theorem trim_lower_trim
    (text : String) :
    trim (lower (trim text)) = lower (trim text) := by
  rw [trim, trimChars_lower_trim, ← toList_lower_trim, String.ofList_toList]

/--
The lowercase form of a hexadecimal color is a hash mark and hexadecimal digits.
-/
theorem lowerChars_of_parseHex
    {text : String}
    {digits : List Char}
    (isForm : trimChars text.toList = '#' :: digits)
    (allHex : ∀ c ∈ digits, isHexDigit c = true) :
    (lower (trim text)).toList = '#' :: digits.map lowerChar := by
  have settled : IsSettled '#' := by decide
  rw [toList_lower_trim, isForm, lowerChars, lowerFrom, settled.lowerInContext_eq,
    lowerFrom_of_isHexDigit allHex]
  rfl

/-- In lowercase, a hexadecimal color stays one. -/
theorem isSome_parseHex_lower
    {text : String}
    (isColor : (parseHex text).isSome = true) :
    (parseHex (lower (trim text))).isSome = true := by
  obtain ⟨digits, isForm, allHex, isLength⟩ := isSome_parseHex_iff.mp isColor
  refine isSome_parseHex_iff.mpr ⟨digits.map lowerChar, ?_, ?_, by simpa using
    isLength⟩
  · rw [trimChars_lower_trim, ← toList_lower_trim,
      lowerChars_of_parseHex isForm allHex]
  · intro lowered isLowered
    obtain ⟨c, isDigit, rfl⟩ := List.mem_map.mp isLowered
    exact (isHexDigit_cases (allHex c isDigit)).2.2.2.2

/-- The written forms of a color with a value. -/
inductive Form (text : String) : Prop where
  | hex (digits : List Char) :
      trimChars text.toList = '#' :: digits →
      (∀ c ∈ digits, isHexDigit c = true) →
      (parseHex (trim text)).isSome = true →
      Form text
  | function (name : String) :
      name ∈ functions →
      startsWith name.toList (lower (trim text)).toList = true →
      Form text
  | name :
      Wire.has (lower (trim text)) named = true →
      Form text

/-- A color with a value is written in one of the forms. -/
theorem form_of_parse
    {text : String}
    {color : Color}
    (isColor : parse text = .ok (some color)) :
    Form text := by
  unfold parse at isColor
  simp only at isColor
  split at isColor
  · cases isColor
  · split at isColor
    · have isRead : parseHex (trim text) = some color := Except.ok.inj isColor
      have isHex := Option.isSome_of_eq_some isRead
      obtain ⟨digits, isForm, allHex, _⟩ := isSome_parseHex_iff.mp isHex
      rw [toList_trim, trimChars_trimChars] at isForm
      exact .hex digits isForm allHex isHex
    · split at isColor
      · rename_i isRgb
        exact .function "rgb" (by decide) isRgb
      · split at isColor
        · rename_i isHsl
          exact .function "hsl" (by decide) isHsl
        · split at isColor
          · rename_i isOklch
            exact .function "oklch" (by decide) isOklch
          · have isNamed := Except.ok.inj isColor
            rw [parseNamed, lower_trim_lower_trim] at isNamed
            exact .name (by rw [Wire.has, isNamed]; rfl)

/-- A color does not depend on blanks around it. -/
theorem parse_trim
    (text : String) :
    parse (trim text) = parse text := by
  unfold parse
  rw [trim_trim]

/-- What begins like a color function in lowercase begins with no hash mark. -/
theorem not_startsWith_hash_of_function
    {name text : String}
    (isFunction : name ∈ functions)
    (starts : startsWith name.toList text.toList = true) :
    startsWith ['#'] text.toList = false := by
  simp only [functions, List.mem_cons, List.not_mem_nil, or_false] at isFunction
  rcases isFunction with rfl | rfl | rfl
  all_goals exact not_startsWith_of_head_ne (by decide) starts

/-- A color function is read alike in lowercase. -/
theorem parse_lower_trim_of_function
    {name text : String}
    (isFunction : name ∈ functions)
    (starts : startsWith name.toList (lower (trim text)).toList = true) :
    parse (lower (trim text)) = parse text := by
  have isThere : lower (trim text) ≠ "" := by
    intro isEmpty
    rw [isEmpty] at starts
    simp only [functions, List.mem_cons, List.not_mem_nil, or_false] at isFunction
    rcases isFunction with rfl | rfl | rfl <;> cases starts
  have wasThere : trim text ≠ "" := by
    intro isEmpty
    rw [isEmpty] at isThere
    exact isThere rfl
  have noHash := not_startsWith_hash_of_function isFunction starts
  have hadNoHash : startsWith ['#'] (trim text).toList = false := by
    rw [← Bool.not_eq_true]
    intro isHex
    have isHash : IsSettled '#' := by decide
    have stillHex : startsWith ['#'] (lower (trim text)).toList = true := by
      rw [lower, String.toList_ofList]
      exact startsWith_lowerChars isHash isHex
    cases noHash.symm.trans stillHex
  unfold parse
  simp only [trim_lower_trim, if_neg isThere, if_neg wasThere, noHash, hadNoHash,
    Bool.false_eq_true, if_false, lower_lower]

/-- A hexadecimal color is one in lowercase, too. -/
theorem parse_lower_trim_of_hex
    {text : String}
    {digits : List Char}
    (isForm : trimChars text.toList = '#' :: digits)
    (allHex : ∀ c ∈ digits, isHexDigit c = true)
    (isHex : (parseHex (trim text)).isSome = true) :
    (parse (lower (trim text))).map Option.isSome = .ok true := by
  have startsHex : startsWith ['#'] (lower (trim text)).toList = true := by
    rw [lowerChars_of_parseHex isForm allHex]
    rfl
  have isThere : lower (trim text) ≠ "" := by
    intro isEmpty
    rw [isEmpty] at startsHex
    cases startsHex
  have isRead := isSome_parseHex_lower isHex
  rw [trim_trim] at isRead
  have parsed : parse (lower (trim text)) = .ok (parseHex (lower (trim text))) := by
    unfold parse
    simp only [trim_lower_trim, if_neg isThere, startsHex, if_true]
  rw [parsed]
  exact congrArg Except.ok isRead

/-- No hexadecimal color holds the word for a gradient. -/
theorem containsText_gradient_of_hex
    {text : String}
    {digits : List Char}
    (isForm : trimChars text.toList = '#' :: digits)
    (allHex : ∀ c ∈ digits, isHexDigit c = true) :
    containsText "gradient" (lower (trim text)) = false := by
  rw [← Bool.not_eq_true, containsText, lowerChars_of_parseHex isForm allHex]
  intro isThere
  have isLetter : 'g' ∈ "gradient".toList := by decide
  rcases List.mem_cons.mp (mem_of_contains isThere isLetter) with isHash | isDigit
  · exact absurd isHash (by decide)
  · obtain ⟨c, isChar, isLower⟩ := List.mem_map.mp isDigit
    exact (isHexDigit_cases (allHex c isChar)).2.2.2.1 isLower

/-- Only a color function can overflow. -/
theorem parenthesis_mem_of_overflows
    {text : String}
    (overflows : Overflows text) :
    '(' ∈ trimChars text.toList := by
  obtain ⟨_, written, isScanned, _⟩ := overflows
  unfold scanOklch? at isScanned
  obtain ⟨rest, isName, _⟩ := Option.bind_eq_some_iff.mp isScanned
  rw [trimChars_lower_trim] at isName
  have isLetter : '(' ∈ ['o', 'k', 'l', 'c', 'h', '('] := by decide
  obtain ⟨c, isChar, isSame⟩ := exists_sameLetter_of_scanWord? isName isLetter
  rw [eq_parenthesis_of_sameLetter isSame] at isChar
  exact mark_mem_of_mem_lowerFrom (by decide) isChar

end DesignTokens.Color
