import DesignTokens.Number.Literal
import DesignTokens.Proofs.Text.Casing
import DesignTokens.Text.Split

namespace DesignTokens

/-!
# Digit-like texts

Digit-like characters are neither blank nor letters, and case does not touch
them.  A text of such characters is a whole number when they are decimal digits
and not too many; otherwise it is no numeral at all.
-/

namespace Text

/-- The code points of digit-like characters, as inclusive ranges. -/
def digitRanges : List (Nat × Nat) :=
  zeros.map (fun start => (start, start + 9)) ++ digitLikeRanges

/-- A digit-like character lies in one of the ranges of digits. -/
theorem exists_digitRange
    {c : Char}
    (isDigit : isDigitLike c = true) :
    ∃ range ∈ digitRanges, range.1 ≤ c.toNat ∧ c.toNat ≤ range.2 := by
  rcases Bool.or_eq_true_iff.mp isDigit with decimal | inTable
  · rw [isDecimal, digitValue?] at decimal
    split at decimal
    · split at decimal
      · rename_i isAscii
        refine ⟨(0x30, 0x39), by decide, ?_⟩
        have bounds := Char.isDigit_iff_toNat.mp isAscii
        exact bounds
      · cases decimal
    · obtain ⟨start, isFound⟩ :=
        Option.isSome_iff_exists.mp (Option.isSome_map ▸ decimal)
      have isZero := List.mem_of_find?_eq_some isFound
      have bounds : start ≤ c.toNat ∧ c.toNat < start + 10 := by
        simpa using List.find?_some isFound
      exact ⟨(start, start + 9),
        List.mem_append_left _ (List.mem_map_of_mem isZero), bounds.1, by omega⟩
  · obtain ⟨range, isRange, bounds⟩ := List.any_eq_true.mp inTable
    exact ⟨range, List.mem_append_right _ isRange, of_decide_eq_true bounds⟩

/-- Whether two ranges have no code point in common. -/
def apart (left right : Nat × Nat) : Bool :=
  Nat.blt left.2 right.1 || Nat.blt right.2 left.1

theorem not_mem_of_apart
    {left right : Nat × Nat}
    (liesApart : apart left right = true)
    {code : Nat}
    (inLeft : left.1 ≤ code ∧ code ≤ left.2) :
    ¬ (right.1 ≤ code ∧ code ≤ right.2) := by
  simp only [apart, Bool.or_eq_true, Nat.blt_eq] at liesApart
  omega

/-- No digit is blank. -/
theorem digitRanges_apart_blankRanges :
    ∀ range ∈ digitRanges, ∀ blank ∈ blankRanges, apart range blank = true := by
  decide

/-- No digit is a capital of the table, and none is the lowercase form of one. -/
theorem digitRanges_apart_caseRuns :
    ∀ range ∈ digitRanges, ∀ run ∈ caseRuns,
      apart range (run.first, run.last) = true ∧
        apart range (run.image run.first, run.image run.last) = true := by
  have allApart : digitRanges.all (fun range => caseRuns.all (fun run =>
      apart range (run.first, run.last) &&
        apart range (run.image run.first, run.image run.last))) = true := by
    decide +kernel
  intro range isRange run isRun
  have isApart :=
    List.all_eq_true.mp (List.all_eq_true.mp allApart range isRange) run isRun
  exact Bool.and_eq_true_iff.mp isApart

theorem not_isBlank_of_isDigitLike
    {c : Char}
    (isDigit : isDigitLike c = true) :
    isBlank c = false := by
  obtain ⟨range, isRange, inRange⟩ := exists_digitRange isDigit
  rw [isBlank, inRanges, List.any_eq_false]
  intro blank isBlankRange
  have areApart := digitRanges_apart_blankRanges range isRange blank isBlankRange
  have outside := not_mem_of_apart areApart inRange
  simpa using outside

theorem ne_of_isDigitLike
    {c other : Char}
    (isDigit : isDigitLike c = true)
    (isOther : isDigitLike other = false) :
    c ≠ other := by
  rintro rfl
  cases isDigit.symm.trans isOther

/-- Lowercasing leaves a digit-like character as it is. -/
theorem isSettled_of_isDigitLike
    {c : Char}
    (isDigit : isDigitLike c = true) :
    IsSettled c := by
  refine ⟨ne_of_isDigitLike isDigit (by decide),
    ne_of_isDigitLike isDigit (by decide), ?_⟩
  by_cases isNear : c.toNat < 128
  · have keepsForm : isDigitLike c = true → lowerChar c = c :=
      of_toNat_lt isNear (by decide)
    exact keepsForm isDigit
  · refine lowerChar_of_not_held isNear ?_
    obtain ⟨range, isRange, inRange⟩ := exists_digitRange isDigit
    intro run isRun
    have outside :=
      not_mem_of_apart (digitRanges_apart_caseRuns range isRange run isRun).1
        inRange
    simp only [CaseRun.holds, Bool.and_eq_false_iff, decide_eq_false_iff_not]
    exact .inl outside

/-- Only a digit-like character has a digit-like lowercase form. -/
theorem isDigitLike_of_lowerChar
    {c : Char}
    (isDigit : isDigitLike (lowerChar c) = true) :
    isDigitLike c = true := by
  by_cases isNear : c.toNat < 128
  · have isDigitBefore : isDigitLike (lowerChar c) = true → isDigitLike c = true :=
      of_toNat_lt isNear (by decide)
    exact isDigitBefore isDigit
  · rcases lowerChar_cases isNear with
      ⟨_, keepsForm⟩ | ⟨run, isRun, isCapital, isImage⟩
    · rwa [keepsForm] at isDigit
    · obtain ⟨range, isRange, inRange⟩ := exists_digitRange isDigit
      rw [isImage] at inRange
      have areApart := digitRanges_apart_caseRuns range isRange run isRun
      have outside := not_mem_of_apart areApart.2 inRange
      exact (outside (CaseRun.image_bounds isCapital)).elim

/-- A text whose lowercase form is digit-like is digit-like, and it is that form. -/
theorem lowerFrom_eq_of_digits
    {before chars : List Char}
    (digits : (lowerFrom before chars).all isDigitLike = true) :
    lowerFrom before chars = chars := by
  induction chars generalizing before with
  | nil => rfl
  | cons c rest inductionHypothesis =>
      rw [lowerFrom, List.all_append, Bool.and_eq_true] at digits
      obtain ⟨firstDigits, restDigits⟩ := digits
      have isDigit : isDigitLike c = true := by
        unfold lowerInContext at firstDigits
        split at firstDigits
        · split at firstDigits
          · exact absurd firstDigits (by decide)
          · exact absurd firstDigits (by decide)
        · split at firstDigits
          · exact absurd firstDigits (by decide)
          · exact isDigitLike_of_lowerChar (by simpa using firstDigits)
      rw [lowerFrom, (isSettled_of_isDigitLike isDigit).lowerInContext_eq,
        inductionHypothesis restDigits]
      rfl

/--
Lowercasing leaves digit-like texts as they are, and no other text becomes one.
-/
theorem allDigitLike_lowerChars
    {chars : List Char}
    (digits : allDigitLike (lowerChars chars) = true ∨ allDigitLike chars = true) :
    lowerChars chars = chars := by
  rcases digits with afterwards | before
  · exact lowerFrom_eq_of_digits (Bool.and_eq_true_iff.mp afterwards).2
  · refine lowerFrom_of_settled (fun c isMember => isSettled_of_isDigitLike ?_) []
    exact List.all_eq_true.mp (Bool.and_eq_true_iff.mp before).2 c isMember

/-- A digit-like character is no letter, whatever the case. -/
theorem sameLetter_of_isDigitLike
    {c letter : Char}
    (isDigit : isDigitLike c = true)
    (isLetter : isDigitLike letter = false) :
    sameLetter c letter = false := by
  have differs : c ≠ letter := ne_of_isDigitLike isDigit isLetter
  have notDotted := (isSettled_of_isDigitLike isDigit).notDotted
  have keepsForm := (isSettled_of_isDigitLike isDigit).keepsForm
  have notDotless : c ≠ 'ı' := ne_of_isDigitLike isDigit (by decide)
  have notLong : c ≠ 'ſ' := ne_of_isDigitLike isDigit (by decide)
  simp [sameLetter, differs, notDotted, keepsForm, notDotless, notLong]

/-- A digit-like text begins with no other character. -/
theorem startsWith_of_digits
    {chars : List Char}
    (digits : allDigitLike chars = true)
    {first : Char}
    (isOther : isDigitLike first = false)
    (more : List Char) :
    startsWith (first :: more) chars = false := by
  cases chars with
  | nil => rfl
  | cons c rest =>
      have isDigit : isDigitLike c = true := by
        simp only [allDigitLike, List.all_cons, Bool.and_eq_true] at digits
        exact digits.2.1
      have differs := ne_of_isDigitLike isDigit isOther
      simp [startsWith, List.isPrefixOf, differs.symm]

/-- A digit-like text is none of some words that are not. -/
theorem not_mem_of_digits
    {text : String}
    (digits : allDigitLike text.toList = true)
    {words : List String}
    (noDigits : ∀ word ∈ words, allDigitLike word.toList = false) :
    text ∉ words := by
  intro isWord
  cases digits.symm.trans (noDigits text isWord)

/--
Digit-like characters that make up no whole number: some are no decimal digits,
or they are too many.
-/
structure NoNumeral (chars : List Char) : Prop where
  digitLike :
    allDigitLike chars = true
  unreadable :
    chars.all isDecimal = false ∨ Number.maxWholeDigits < chars.length

namespace NoNumeral

theorem isDigitLike_of_mem
    {chars : List Char}
    (noNumeral : NoNumeral chars)
    {c : Char}
    (isMember : c ∈ chars) :
    isDigitLike c = true :=
  List.all_eq_true.mp (Bool.and_eq_true_iff.mp noNumeral.digitLike).2 c isMember

end NoNumeral

end Text

namespace Number

open Text

/-- Nothing is dropped around a text that holds nothing to be dropped. -/
theorem dropPadding_of_not_blank
    {chars : List Char}
    (noBlank : ∀ c ∈ chars, isBlank c = false) :
    dropPadding chars = chars := by
  have notPadding : ∀ c ∈ chars, isPadding c = false := by
    intro c isMember
    simp [isPadding, noBlank c isMember]
  have frontKept : chars.dropWhile isPadding = chars := by
    cases chars with
    | nil => rfl
    | cons c rest => exact List.dropWhile_cons_of_neg (by simp [notPadding c])
  rw [dropPadding, frontKept, trimEndWhile_eq_rdropWhile,
    List.rdropWhile_eq_self_iff]
  intro isThere
  simp [notPadding _ (List.getLast_mem isThere)]

/-- In a text without underscores none of them is out of place. -/
theorem underscoresBetweenDigits_of_not_mem
    {chars : List Char}
    (noUnderscore : '_' ∉ chars)
    (afterDigit : Bool) :
    underscoresBetweenDigits afterDigit chars = true := by
  induction chars generalizing afterDigit with
  | nil => rfl
  | cons c rest inductionHypothesis =>
      obtain ⟨differs, notLater⟩ : '_' ≠ c ∧ '_' ∉ rest := by
        simpa using noUnderscore
      unfold underscoresBetweenDigits
      split
      · rfl
      · rename_i isUnderscore
        cases isUnderscore
        exact (differs rfl).elim
      · rename_i isOther
        cases isOther
        exact inductionHypothesis notLater _

/--
A digit-like text is read as a whole number if it holds decimal digits only,
and not too many.
-/
theorem readInt?_of_digitLike
    {chars : List Char}
    (digitLike : allDigitLike chars = true) :
    readInt? (String.ofList chars) =
      if !chars.all isDecimal || decide (maxWholeDigits < chars.length) then none
      else some (Int.ofNat (digitsValue chars)) := by
  obtain ⟨nonempty, allDigits⟩ := Bool.and_eq_true_iff.mp digitLike
  have digits := List.all_eq_true.mp allDigits
  have noMark : ∀ mark, isDigitLike mark = false → mark ∉ chars := by
    intro mark isMark isMember
    cases (digits mark isMember).symm.trans isMark
  have noUnderscore : '_' ∉ chars := noMark '_' (by decide)
  have unsigned : scanSign chars = (false, chars) := by
    unfold scanSign
    split
    · exact (noMark '-' (by decide) (by simp)).elim
    · exact (noMark '+' (by decide) (by simp)).elim
    · rfl
  have kept : chars.filter (· != '_') = chars := by
    rw [List.filter_eq_self]
    rintro c isMember
    simp only [bne_iff_ne, ne_eq]
    rintro rfl
    exact noUnderscore isMember
  have noBlank : ∀ c ∈ chars, isBlank c = false :=
    fun c isMember => not_isBlank_of_isDigitLike (digits c isMember)
  simp only [readInt?, String.toList_ofList, dropPadding_of_not_blank noBlank,
    underscoresBetweenDigits_of_not_mem noUnderscore, kept, unsigned]
  have isThere : chars.isEmpty = false := by simpa using nonempty
  rw [if_neg (by simp), isThere, Bool.false_or]
  rfl

/--
A digit-like text is no whole number when it holds more than decimal
digits, or too many.
-/
theorem readInt?_eq_none_iff
    {chars : List Char}
    (digitLike : allDigitLike chars = true) :
    readInt? (String.ofList chars) = none ↔ NoNumeral chars := by
  rw [readInt?_of_digitLike digitLike]
  by_cases unreadable :
    (!chars.all isDecimal || decide (maxWholeDigits < chars.length)) = true
  · rw [if_pos unreadable]
    exact iff_of_true rfl ⟨digitLike, by simpa using unreadable⟩
  · rw [if_neg unreadable]
    refine iff_of_false (Option.some_ne_none _) (fun noNumeral => unreadable ?_)
    simpa using noNumeral.unreadable

end Number

end DesignTokens
