import DesignTokens.Proofs.Number.Texts
import DesignTokens.Proofs.Wire.Alike
import DesignTokens.Wire.Reader
import Mathlib.Tactic.SplitIfs

namespace DesignTokens

/-!
# Texts and words

A text that is written in quotes is read back, whatever stands behind its
closing quote: every character becomes one code unit or a pair of them, and
pairs are joined again.  What is written in quotes therefore tells texts apart.

Null, truth values and numbers are written as single words.  A word tells its
value, up to doubles of one shortest text: a letter tells null and truth values
from numbers, and a point, an exponent or a word of its own tells a double from
a whole number.
-/

/-- Padding by one more digit writes the quotient in front of the remainder. -/
theorem hexPadded_succ
    (width value : Nat) :
    hexPadded (width + 2) value =
      hexPadded (width + 1) (value / 16) ++ [(value % 16).digitChar] := by
  by_cases isDigit : value < 16
  · rw [hexPadded, hexPadded, Nat.toDigits_of_lt_base isDigit,
      Nat.div_eq_of_lt isDigit, Nat.toDigits_of_lt_base (by decide),
      Nat.mod_eq_of_lt isDigit]
    simp [List.replicate_succ', Nat.digitChar]
  · rw [hexPadded, hexPadded,
      Nat.toDigits_of_base_le (by decide) (Nat.le_of_not_lt isDigit)]
    simp

/-- Four digits of a number that has no more. -/
theorem hexPadded_four
    {unit : Nat}
    (fits : unit < 0x10000) :
    hexPadded 4 unit =
      [ (unit / 16 / 16 / 16).digitChar, (unit / 16 / 16 % 16).digitChar,
        (unit / 16 % 16).digitChar, (unit % 16).digitChar ] := by
  have isDigit : unit / 16 / 16 / 16 < 16 := by omega
  rw [hexPadded_succ, hexPadded_succ, hexPadded_succ, hexPadded,
    Nat.toDigits_of_lt_base isDigit]
  rfl

namespace Reader

theorem hexValue?_digitChar :
    ∀ digit < 16, hexValue? digit.digitChar = some digit := by
  decide

/-- A code unit is read back from its escape. -/
theorem readUnits_unitEscape
    {unit : Nat}
    (fits : unit < 0x10000)
    (rest : List Char) :
    readUnits (Writer.unitEscape unit ++ rest) =
      (readUnits rest).map (fun found => (unit :: found.1, found.2)) := by
  have unitRead :
      hexUnit? (unit / 16 / 16 / 16).digitChar (unit / 16 / 16 % 16).digitChar
        (unit / 16 % 16).digitChar (unit % 16).digitChar = some unit := by
    rw [hexUnit?, hexValue?_digitChar _ (by omega),
      hexValue?_digitChar _ (by omega), hexValue?_digitChar _ (by omega),
      hexValue?_digitChar _ (by omega)]
    simp only [Option.bind_eq_bind, Option.bind_some, Option.pure_def,
      Option.some.injEq]
    omega
  rw [Writer.unitEscape, hexPadded_four fits]
  simp only [List.cons_append, List.nil_append]
  rw [readUnits, unitRead]
  cases readUnits rest <;> rfl

/-- The code units of a character. -/
def units (c : Char) : List Nat :=
  if c.toNat < 0x10000 then [c.toNat]
  else [0xD800 + (c.toNat - 0x10000) / 0x400, 0xDC00 + (c.toNat - 0x10000) % 0x400]

/-- No character has the number of half a pair. -/
theorem toNat_valid
    (c : Char) :
    c.toNat < 0xD800 ∨ 0xDFFF < c.toNat ∧ c.toNat < 0x110000 :=
  c.valid

/-- A character is read back as its code units. -/
theorem readUnits_charText
    (c : Char)
    (rest : List Char) :
    readUnits (Writer.charText c ++ rest) =
      (readUnits rest).map (fun found => (units c ++ found.1, found.2)) := by
  have ofLetter :
      ∀ letter, escape? letter = some c → letter ≠ 'u' → c.toNat < 0x10000 →
        readUnits ('\\' :: letter :: rest) =
          (readUnits rest).map (fun found => (units c ++ found.1, found.2)) := by
    intro letter isLetter notUnit short
    rw [readUnits, isLetter, units, if_pos short]
    · cases readUnits rest <;> rfl
    · intro _ _ _ _ _ isUnit
      exact absurd isUnit notUnit
  unfold Writer.charText
  split_ifs with marked newline carriage tab backspace feed printable short
  · rcases marked with rfl | rfl
    all_goals exact ofLetter _ rfl (by decide) (by decide)
  · subst newline
    exact ofLetter 'n' rfl (by decide) (by decide)
  · subst carriage
    exact ofLetter 'r' rfl (by decide) (by decide)
  · subst tab
    exact ofLetter 't' rfl (by decide) (by decide)
  · subst backspace
    exact ofLetter 'b' rfl (by decide) (by decide)
  · subst feed
    exact ofLetter 'f' rfl (by decide) (by decide)
  · obtain ⟨notQuote, notBackslash⟩ := not_or.mp marked
    have readable : ¬ (c.toNat < 32 ∨ c = '\\') :=
      not_or.mpr ⟨Nat.not_lt.mpr printable.1, notBackslash⟩
    rw [units, if_pos (by omega), List.cons_append, List.nil_append, readUnits,
      if_neg readable]
    · cases readUnits rest <;> rfl
    · exact notQuote
    · intro _ _ _ _ _ isEscape
      exact absurd isEscape notBackslash
    · intro _ _ isEscape
      exact absurd isEscape notBackslash
  · rw [units, if_pos short, readUnits_unitEscape short]
    rfl
  · have valid := toNat_valid c
    rw [units, if_neg short, List.append_assoc, readUnits_unitEscape (by omega),
      readUnits_unitEscape (by omega), Option.map_map]
    rfl

/-- A whole text is read back as its code units, up to the closing quote. -/
theorem readUnits_text
    (chars rest : List Char) :
    readUnits (chars.flatMap Writer.charText ++ '"' :: rest) =
      some (chars.flatMap units, rest) := by
  induction chars with
  | nil => rfl
  | cons c chars inductionHypothesis =>
      rw [List.flatMap_cons, List.append_assoc, readUnits_charText,
        inductionHypothesis]
      rfl

/-- The code units of a character are joined into that character. -/
theorem joinUnits_units
    (c : Char)
    (rest : List Nat) :
    joinUnits (units c ++ rest) = c :: joinUnits rest := by
  have valid := toNat_valid c
  unfold units
  split
  · have noHigh : isHighUnit c.toNat = false := decide_eq_false (by omega)
    have noLow : isLowUnit c.toNat = false := decide_eq_false (by omega)
    have isChar : unitChar c.toNat = c := by
      rw [unitChar, noHigh, noLow]
      exact Char.ofNat_toNat c
    cases rest with
    | nil => exact congrArg (fun char => [char]) isChar
    | cons next rest =>
        rw [List.singleton_append, joinUnits, noHigh, isChar]
        rfl
  · rename_i long
    have isHigh : isHighUnit (0xD800 + (c.toNat - 0x10000) / 0x400) = true :=
      decide_eq_true (by omega)
    have isLow : isLowUnit (0xDC00 + (c.toNat - 0x10000) % 0x400) = true :=
      decide_eq_true (by omega)
    have joined :
        0x10000 + (0xD800 + (c.toNat - 0x10000) / 0x400 - 0xD800) * 0x400 +
          (0xDC00 + (c.toNat - 0x10000) % 0x400 - 0xDC00) = c.toNat := by
      omega
    rw [List.cons_append, List.cons_append, List.nil_append, joinUnits, isHigh,
      isLow, joined, Char.ofNat_toNat]
    rfl

/-- The code units of a text are joined into that text. -/
theorem joinUnits_text
    (chars : List Char) :
    joinUnits (chars.flatMap units) = chars := by
  induction chars with
  | nil => rfl
  | cons c chars inductionHypothesis =>
      rw [List.flatMap_cons, joinUnits_units, inductionHypothesis]

/-- A written text is read back, whatever stands behind its closing quote. -/
theorem readText_text
    (content : String)
    (rest : List Char) :
    readText (content.toList.flatMap Writer.charText ++ '"' :: rest) =
      some (content, rest) := by
  rw [readText, readUnits_text, Option.map_some, joinUnits_text,
    String.ofList_toList]

end Reader

namespace Writer

theorem toList_text
    (content : String) :
    (text content).toList = '"' :: (content.toList.flatMap charText ++ ['"']) :=
  String.toList_ofList

/--
What begins with a written text tells which text that is and what
stands behind it.
-/
theorem text_append_inj
    {left right : String}
    {rest more : List Char}
    (same : (text left).toList ++ rest = (text right).toList ++ more) :
    left = right ∧ rest = more := by
  have sameRead := congrArg (fun chars => Reader.readText chars.tail) same
  simp only [toList_text, List.cons_append, List.tail_cons, List.append_assoc,
    List.nil_append, Reader.readText_text, Option.some.injEq,
    Prod.mk.injEq] at sameRead
  exact sameRead

end Writer

namespace Wire

open Number (IsNumeric)

section Numbers

/--
The words for doubles that are not finite, written and in their shortest text.
-/
def notFinite : List (String × String) :=
  [("Infinity", "inf"), ("-Infinity", "-inf"), ("NaN", "nan")]

/--
A double is written in its shortest text, or it is not finite and
written as a word.
-/
theorem float_cases
    (value : Float) :
    (Writer.float value = Number.plainText value ∧
        (∀ c ∈ (Number.plainText value).toList, IsNumeric c) ∧
          ∃ mark ∈ (Number.plainText value).toList, mark = '.' ∨ mark = 'e') ∨
      (Writer.float value, Number.plainText value) ∈ notFinite := by
  rw [Writer.float]
  cases kind : Number.Binary.ofFloat value with
  | finite negative mantissa exponent =>
      exact .inl ⟨rfl, Number.numeric_plainText kind,
        Number.exists_mark_of_finite kind⟩
  | infinite negative =>
      rw [Number.plainText, Number.floatText, kind]
      cases negative with
      | true => exact .inr (by decide)
      | false => exact .inr (by decide)
  | notANumber =>
      rw [Number.plainText, Number.floatText, kind]
      exact .inr (by decide)

/-- Numeric texts are none of the words. -/
theorem numeric_ne_word
    {text : String}
    (numeric : ∀ c ∈ text.toList, IsNumeric c) :
    ∀ words ∈ notFinite, text ≠ words.1 ∧ text ≠ words.2 := by
  have wordsAreNot :
      ∀ words ∈ notFinite,
        words.1.toList.all (fun c => decide (IsNumeric c)) = false ∧
          words.2.toList.all (fun c => decide (IsNumeric c)) = false := by
    decide
  have isNumeric : text.toList.all (fun c => decide (IsNumeric c)) = true :=
    List.all_eq_true.mpr (fun c isMember => decide_eq_true (numeric c isMember))
  intro words areWords
  obtain ⟨notFirst, notSecond⟩ := wordsAreNot words areWords
  constructor
  · rintro rfl
    exact absurd isNumeric (ne_true_of_eq_false notFirst)
  · rintro rfl
    exact absurd isNumeric (ne_true_of_eq_false notSecond)

/-- Doubles are written alike exactly when they have the same shortest text. -/
theorem float_eq_iff
    {left right : Float} :
    Writer.float left = Writer.float right ↔
      Number.plainText left = Number.plainText right := by
  have wordByWord :
      ∀ words ∈ notFinite,
        ∀ others ∈ notFinite, (words.1 = others.1 ↔ words.2 = others.2) := by
    decide
  rcases float_cases left with ⟨leftIsText, leftNumeric, _⟩ | leftWords
  · rcases float_cases right with ⟨rightIsText, _, _⟩ | rightWords
    · rw [leftIsText, rightIsText]
    · obtain ⟨notWritten, notText⟩ := numeric_ne_word leftNumeric _ rightWords
      rw [leftIsText]
      exact iff_of_false notWritten notText
  · rcases float_cases right with ⟨rightIsText, rightNumeric, _⟩ | rightWords
    · obtain ⟨notWritten, notText⟩ := numeric_ne_word rightNumeric _ leftWords
      rw [rightIsText]
      exact iff_of_false notWritten.symm notText.symm
    · exact wordByWord _ leftWords _ rightWords

/-- A double is not written as a whole number is. -/
theorem float_ne_intText
    (value : Float)
    (whole : Int) :
    Writer.float value ≠ Number.intText whole := by
  have marked : ∃ mark ∈ (Writer.float value).toList,
      ¬ (mark.isDigit = true ∨ mark = '-') := by
    rcases float_cases value with ⟨isText, _, mark, isMember, isMark⟩ | areWords
    · rw [isText]
      refine ⟨mark, isMember, ?_⟩
      rcases isMark with rfl | rfl
      all_goals decide
    · have ofWord :
          ∀ words ∈ notFinite,
            words.1.toList.any (fun c => !(c.isDigit || c == '-')) = true := by
        decide
      obtain ⟨mark, isMember, isMark⟩ := List.any_eq_true.mp (ofWord _ areWords)
      exact ⟨mark, isMember, by simpa using isMark⟩
  obtain ⟨mark, isMember, noDigit⟩ := marked
  intro same
  rw [same] at isMember
  exact noDigit (Number.isDigit_or_sign_of_mem_intText isMember)

end Numbers

section Words

/-- The characters of null, of truth values and of numbers. -/
def isWordChar (c : Char) : Bool :=
  c.isAlphanum || c == '-' || c == '+' || c == '.'

/--
The mark with which a value begins; null, truth values and numbers
begin with none.
-/
def mark? : Wire → Option Char
  | .str _ => some '"'
  | .list _ => some '['
  | .obj _ => some '\x7b'
  | _ => none

theorem isWordChar_of_isNumeric
    {c : Char}
    (isNumeric : IsNumeric c) :
    isWordChar c = true := by
  rcases isNumeric with isDigit | rfl | rfl | rfl | rfl
  · simp [isWordChar, Char.isAlphanum, isDigit]
  all_goals decide

/--
The text of a number: word characters only, without the letters that tell
the other words.
-/
structure IsNumberText (text : String) : Prop where
  nonempty :
    text.toList ≠ []
  ofWord :
    ∀ c ∈ text.toList, isWordChar c = true
  noLetter :
    'l' ∉ text.toList ∧ 'u' ∉ text.toList

theorem isNumberText_of_numeric
    {text : String}
    (nonempty : text.toList ≠ [])
    (numeric : ∀ c ∈ text.toList, IsNumeric c) :
    IsNumberText text where
  nonempty := nonempty
  ofWord c isMember := isWordChar_of_isNumeric (numeric c isMember)
  noLetter := by
    constructor
    · intro isThere
      exact absurd (numeric 'l' isThere) (by decide)
    · intro isThere
      exact absurd (numeric 'u' isThere) (by decide)

theorem isNumberText_float
    (value : Float) :
    IsNumberText (Writer.float value) := by
  rcases float_cases value with ⟨isText, numeric, mark, isMember, _⟩ | areWords
  · rw [isText]
    exact isNumberText_of_numeric (List.ne_nil_of_mem isMember) numeric
  · have ofWords :
        ∀ words ∈ notFinite,
          words.1.toList ≠ [] ∧ words.1.toList.all isWordChar = true ∧
            'l' ∉ words.1.toList ∧ 'u' ∉ words.1.toList := by
      decide
    obtain ⟨nonempty, ofWord, noLetter⟩ := ofWords _ areWords
    exact ⟨nonempty, List.all_eq_true.mp ofWord, noLetter⟩

theorem isNumberText_int
    (whole : Int) :
    IsNumberText (Number.intText whole) := by
  apply isNumberText_of_numeric (Number.intText_ne_empty whole)
  intro c isMember
  rcases Number.isDigit_or_sign_of_mem_intText isMember with isDigit | isSign
  · exact .inl isDigit
  · exact .inr (.inl isSign)

/-- A number is none of the other words. -/
theorem IsNumberText.ne_word
    {text : String}
    (isNumber : IsNumberText text) :
    ∀ word ∈ ["null", "true", "false"], text ≠ word := by
  have withLetter : ∀ word ∈ ["null", "true", "false"], 'l' ∈ word.toList ∨
      'u' ∈ word.toList := by
    decide
  rintro word isWord rfl
  exact (withLetter text isWord).elim isNumber.noLetter.1 isNumber.noLetter.2

/-- A value as it stands in a line. -/
def chars (value : Wire) : List Char :=
  value.toLine.toList

/-- What begins with no mark is a word. -/
theorem word_chars
    {value : Wire}
    (noMark : value.mark? = none) :
    value.chars ≠ [] ∧ ∀ c ∈ value.chars, isWordChar c = true := by
  cases value with
  | null => exact ⟨by decide, List.all_eq_true.mp (by decide)⟩
  | bool truth =>
      cases truth with
      | true => exact ⟨by decide, List.all_eq_true.mp (by decide)⟩
      | false => exact ⟨by decide, List.all_eq_true.mp (by decide)⟩
  | int whole =>
      exact ⟨(isNumberText_int whole).nonempty, (isNumberText_int whole).ofWord⟩
  | float number =>
      exact ⟨(isNumberText_float number).nonempty,
        (isNumberText_float number).ofWord⟩
  | _ => cases noMark

/-- A word tells null, truth values, whole numbers and doubles apart. -/
theorem alike_of_same_word
    {left right : Wire}
    (leftNoMark : left.mark? = none)
    (rightNoMark : right.mark? = none)
    (same : left.toLine = right.toLine) :
    left.Alike right := by
  have apart : ∀ {text}, IsNumberText text →
      text ≠ "null" ∧ ∀ truth, text ≠ (Wire.bool truth).toLine := by
    intro text isNumber
    refine ⟨isNumber.ne_word "null" (by simp), fun truth => ?_⟩
    cases truth with
    | true => exact isNumber.ne_word "true" (by simp)
    | false => exact isNumber.ne_word "false" (by simp)
  cases left with
  | null =>
      cases right with
      | null => exact .null
      | bool truth => cases truth <;> exact absurd same (by decide)
      | int whole => exact absurd same.symm (apart (isNumberText_int whole)).1
      | float number => exact absurd same.symm (apart (isNumberText_float number)).1
      | _ => cases rightNoMark
  | bool truth =>
      cases right with
      | null => cases truth <;> exact absurd same (by decide)
      | bool other =>
          obtain rfl : truth = other := by
            cases truth <;> cases other <;>
              first | rfl | exact absurd same (by decide)
          exact .bool truth
      | int whole =>
          exact absurd same.symm ((apart (isNumberText_int whole)).2 truth)
      | float number =>
          exact absurd same.symm ((apart (isNumberText_float number)).2 truth)
      | _ => cases rightNoMark
  | int whole =>
      cases right with
      | null => exact absurd same (apart (isNumberText_int whole)).1
      | bool truth => exact absurd same ((apart (isNumberText_int whole)).2 truth)
      | int other =>
          obtain rfl := Number.intText_injective same
          exact .int whole
      | float number => exact absurd same.symm (float_ne_intText number whole)
      | _ => cases rightNoMark
  | float number =>
      cases right with
      | null => exact absurd same (apart (isNumberText_float number)).1
      | bool truth =>
          exact absurd same ((apart (isNumberText_float number)).2 truth)
      | int whole => exact absurd same (float_ne_intText number whole)
      | float other => exact .float (float_eq_iff.mp same)
      | _ => cases rightNoMark
  | _ => cases leftNoMark

end Words

end Wire

end DesignTokens
