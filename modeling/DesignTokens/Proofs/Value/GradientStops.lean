import DesignTokens.Proofs.Color.Writing
import DesignTokens.Proofs.Text.Search
import DesignTokens.Value.Gradient

namespace DesignTokens.Gradient

/-!
# Stops of gradients

The stops of a gradient are found among candidates: colors and words with a
percentage or without one.  A written stop gives one color, whatever its
position is, and the marks and words around it give none.
-/

open DesignTokens.Text
open DesignTokens.Number (PlainNumeral IsPlainText)

/-! Colors among candidates. -/

/-- How many of the candidates for a stop are colors; none of them overflows. -/
inductive HoldsColors : List (List Char × Option Float) → Nat → Prop where
  | nil : HoldsColors [] 0
  | word {word : List Char} {position? : Option Float}
      {rest : List (List Char × Option Float)}
      {count : Nat} :
      Color.parse (String.ofList word) = .ok none → HoldsColors rest count →
      HoldsColors ((word, position?) :: rest) count
  | color {text : List Char} {position? : Option Float}
      {rest : List (List Char × Option Float)}
      {count : Nat} {color : Color} :
      Color.parse (String.ofList text) = .ok (some color) → HoldsColors rest count →
      HoldsColors ((text, position?) :: rest) (count + 1)

/-- A gradient has as many stops as there are colors among the candidates. -/
theorem exists_stopsOf
    {candidates : List (Match (List Char × Option Float))}
    {count : Nat}
    (holds : HoldsColors (candidates.map Match.found) count)
    (found : List GradientStop) :
    ∃ stops, stopsOf found candidates = .ok stops ∧
      stops.length = found.length + count := by
  induction candidates generalizing found count with
  | nil =>
      cases holds
      exact ⟨found, rfl, rfl⟩
  | cons candidate rest inductionHypothesis =>
      obtain ⟨before, ⟨text, position?⟩, after⟩ := candidate
      rw [List.map_cons] at holds
      cases holds with
      | word isWord holds =>
          obtain ⟨stops, areStops, isLength⟩ := inductionHypothesis holds found
          refine ⟨stops, ?_, isLength⟩
          rw [stopsOf, isWord]
          exact areStops
      | color isColor holds =>
          rw [stopsOf, isColor]
          obtain ⟨stops, areStops, isLength⟩ :=
            inductionHypothesis holds (found ++ [⟨_, _⟩])
          refine ⟨stops, areStops, ?_⟩
          rw [isLength, List.length_append, List.length_singleton]
          omega

/-- A stop as it is read from a text. -/
structure IsRead (stop : GradientStop) : Prop where
  hasShares : Color.HasShares stop.color
  hasPosition : ∃ position, stop.position = .float position

theorem isRead_of_stopsOf
    {candidates : List (Match (List Char × Option Float))}
    {found stops : List GradientStop}
    (areStops : stopsOf found candidates = .ok stops)
    (areRead : ∀ stop ∈ found, IsRead stop) :
    ∀ stop ∈ stops, IsRead stop := by
  induction candidates generalizing found with
  | nil =>
      cases areStops
      exact areRead
  | cons candidate rest inductionHypothesis =>
      rw [stopsOf] at areStops
      obtain ⟨color?, isColor, restStops⟩ := bind_eq_ok_iff.mp areStops
      cases color? with
      | none => exact inductionHypothesis restStops areRead
      | some color =>
          refine inductionHypothesis restStops
            (List.forall_mem_append.mpr ⟨areRead,
              List.forall_mem_singleton.mpr ⟨Color.hasShares_of_parse isColor, ?_⟩⟩)
          exact ⟨_, rfl⟩

/-! Marks and words. -/

/-- The letters with which color functions begin. -/
def initials : List Char :=
  ['r', 'h', 'o']

/-- Whether neither a color nor a word begins with a character. -/
def isMark (c : Char) : Bool :=
  c != '#' && !isLetterIgnoringCase c && !initials.any (sameLetter c)

theorem toNat_lt_of_isAlpha
    {c : Char}
    (isAlpha : c.isAlpha = true) :
    c.toNat < 128 := by
  rcases Bool.or_eq_true_iff.mp isAlpha with isUpper | isLower
  · have below : c.toNat ≤ 'Z'.toNat := (of_decide_eq_true isUpper).2
    exact Nat.lt_of_le_of_lt below (by decide)
  · have below : c.toNat ≤ 'z'.toNat :=
      of_decide_eq_true (Bool.and_eq_true_iff.mp isLower).2
    exact Nat.lt_of_le_of_lt below (by decide)

theorem not_isLetter_of_isDecimal
    {c : Char}
    (decimal : isDecimal c = true) :
    isLetterIgnoringCase c = false := by
  have isDigit := Number.isDigitLike_of_isDecimal decimal
  have notDotless : c ≠ 'ı' := ne_of_isDigitLike isDigit (by decide)
  have notLong : c ≠ 'ſ' := ne_of_isDigitLike isDigit (by decide)
  have notDotted : c ≠ 'İ' := ne_of_isDigitLike isDigit (by decide)
  have notKelvin : c ≠ '\u212A' := ne_of_isDigitLike isDigit (by decide)
  have notAlpha : c.isAlpha = false := by
    rw [← Bool.not_eq_true]
    intro isAlpha
    have noLetter : isDecimal c = true → c.isAlpha = false :=
      of_toNat_lt (toNat_lt_of_isAlpha isAlpha) (by decide)
    cases isAlpha.symm.trans (noLetter decimal)
  simp [isLetterIgnoringCase, notAlpha, notDotless, notLong, notDotted, notKelvin]

/-- Nothing begins with a character of a numeral. -/
theorem isMark_of_isNumeralChar
    {c : Char}
    (isNumeral : Number.isNumeralChar c = true) :
    isMark c = true := by
  simp only [Number.isNumeralChar, Bool.or_eq_true, beq_iff_eq] at isNumeral
  rcases isNumeral with (decimal | rfl) | rfl
  · have isDigit := Number.isDigitLike_of_isDecimal decimal
    have notHash : c ≠ '#' := ne_of_isDigitLike isDigit (by decide)
    have noR : sameLetter c 'r' = false :=
      sameLetter_of_isDigitLike isDigit (by decide)
    have noH : sameLetter c 'h' = false :=
      sameLetter_of_isDigitLike isDigit (by decide)
    have noO : sameLetter c 'o' = false :=
      sameLetter_of_isDigitLike isDigit (by decide)
    simp [isMark, initials, notHash, not_isLetter_of_isDecimal decimal, noR,
      noH, noO]
  · decide
  · decide

/-- No color function begins with a character that is none of the letters for it. -/
theorem scanColorFunction?_eq_none
    {c : Char}
    (noInitial : initials.any (sameLetter c) = false)
    (rest : List Char) :
    Shadow.scanColorFunction? true false (c :: rest) = none := by
  simp only [initials, List.any_cons, List.any_nil, Bool.or_false,
    Bool.or_eq_false_iff]
    at noInitial
  obtain ⟨noR, noH, noO⟩ := noInitial
  have noName : ["rgba(", "rgb(", "hsla(", "hsl(", "oklch("].findSome?
      (fun name => scanWord? name.toList (c :: rest)) = none := by
    simp [List.findSome?, scanWord?, noR, noH, noO]
  unfold Shadow.scanColorFunction?
  simp only [if_true, noName]

theorem scanHexDigits?_eq_none
    {c : Char}
    (notHash : c ≠ '#')
    (rest : List Char) :
    scanHexDigits? (c :: rest) = none := by
  unfold scanHexDigits?
  split
  · rename_i isHash
    exact (notHash (List.cons.inj isHash).1).elim
  · rfl

/-- No candidate begins with a mark. -/
theorem scanStop?_mark
    {c : Char}
    (marked : isMark c = true)
    (rest : List Char) :
    scanStop? (c :: rest) = none := by
  simp only [isMark, Bool.and_eq_true, bne_iff_ne, Bool.not_eq_true'] at marked
  obtain ⟨⟨notHash, notLetter⟩, noInitial⟩ := marked
  have noWord : scanWordIgnoringCase? (c :: rest) = none := by
    simp [scanWordIgnoringCase?, notLetter]
  unfold scanStop? scanStopColor?
  rw [scanHexDigits?_eq_none notHash, scanColorFunction?_eq_none noInitial, noWord]
  rfl

theorem foundIn_marks
    {marks : List Char}
    (areMarks : ∀ c ∈ marks, isMark c = true)
    (rest : List Char) :
    foundIn scanStop? (marks ++ rest) = foundIn scanStop? rest := by
  induction marks with
  | nil => rfl
  | cons c marks inductionHypothesis =>
      obtain ⟨marked, areMarks⟩ := List.forall_mem_cons.mp areMarks
      rw [List.cons_append, foundIn_cons (scanStop?_mark marked _),
        inductionHypothesis areMarks]

/-- There is no position where no digit stands. -/
theorem scanPosition_eq_none
    {c : Char}
    (noDigit : isDecimal c = false)
    (rest : List Char) :
    scanPosition (c :: rest) = (none, c :: rest) := by
  simp [scanPosition, Number.scanUnsigned?, Number.scanDigits, noDigit]

/-- Whether a text is a word with which no color function begins. -/
def isPlainWord : List Char → Bool
  | [] => false
  | first :: more =>
      (first :: more).all isLetterIgnoringCase && !initials.any (sameLetter first)

/-- Whether a character is part of neither a word nor a position behind it. -/
def isBreak (c : Char) : Bool :=
  !isLetterIgnoringCase c && !isDecimal c && !isBlank c

/-- A word in front of a break is a candidate without a position. -/
theorem foundIn_word
    {word : List Char}
    {mark : Char}
    (isPlain : isPlainWord word = true)
    (isBroken : isBreak mark = true)
    (rest : List Char) :
    foundIn scanStop? (word ++ mark :: rest) =
      (word, none) :: foundIn scanStop? (mark :: rest) := by
  obtain ⟨first, more, rfl⟩ : ∃ first more, word = first :: more := by
    cases word with
    | nil => cases isPlain
    | cons first more => exact ⟨first, more, rfl⟩
  simp only [isPlainWord, Bool.and_eq_true, Bool.not_eq_true'] at isPlain
  obtain ⟨areLetters, noInitial⟩ := isPlain
  simp only [isBreak, Bool.and_eq_true, Bool.not_eq_true'] at isBroken
  obtain ⟨⟨endsWord, noDigit⟩, isInk⟩ := isBroken
  have letters : ∀ c ∈ first :: more, isLetterIgnoringCase c = true :=
    List.all_eq_true.mp areLetters
  have notHash : first ≠ '#' := by
    rintro rfl
    cases letters '#' List.mem_cons_self
  have isWord : scanWordIgnoringCase? (first :: more ++ mark :: rest) =
      some (first :: more, mark :: rest) := by
    unfold scanWordIgnoringCase?
    rw [List.takeWhile_append_of_pos letters, List.dropWhile_append_of_pos letters]
    simp [endsWord]
  have noBlank : skipBlank (mark :: rest) = mark :: rest :=
    List.dropWhile_cons_of_neg (by simp [isInk])
  have isTaken : scanStop? (first :: more ++ mark :: rest) =
      some ((first :: more, none), mark :: rest) := by
    unfold scanStop? scanStopColor?
    rw [List.cons_append, scanHexDigits?_eq_none notHash,
      scanColorFunction?_eq_none noInitial, ← List.cons_append, isWord]
    simp only [Option.map_some, noBlank, scanPosition_eq_none noDigit]
  refine foundIn_of_taken isTaken ?_
  simp only [List.length_append, List.length_cons]
  omega

/-! Written stops. -/

/--
A stop as it is written: a color function, a blank, a number and a percent sign.
-/
structure StopText where
  color : Color.RgbText
  part : List Char
  partForm : IsPlainText part ∨ String.ofList part ∈ Number.infiniteWords

namespace StopText

/-- The stop as it is written. -/
def text (stop : StopText) : List Char :=
  stop.color.text ++ ' ' :: (stop.part ++ ['%'])

end StopText

/-- A written color is taken whole. -/
theorem scanStopColor?_text
    (color : Color.RgbText)
    (rest : List Char) :
    scanStopColor? (color.text ++ rest) = some (color.text, rest) := by
  have isForm : color.text ++ rest =
      color.name ++ (color.inside ++ ')' :: rest) := by
    simp [Color.RgbText.text]
  have isName : ["rgba(", "rgb(", "hsla(", "hsl(", "oklch("].findSome?
      (fun name => scanWord? name.toList (color.text ++ rest)) =
        some (color.inside ++ ')' :: rest) := by
    rw [isForm]
    unfold Color.RgbText.name
    cases color.alpha? with
    | none => rfl
    | some alpha => rfl
  have isOpen : ∀ c ∈ color.inside, (c != ')') = true := by
    intro c isMember
    rw [bne_iff_ne]
    rintro rfl
    exact color.not_mem_inside isMember
  have isInside : (color.inside ++ ')' :: rest).takeWhile (· != ')') =
      color.inside := by
    rw [List.takeWhile_append_of_pos isOpen]
    simp
  have isBehind : (color.inside ++ ')' :: rest).dropWhile (· != ')') =
      ')' :: rest := by
    rw [List.dropWhile_append_of_pos isOpen]
    simp
  have isThere : color.inside ≠ [] :=
    List.append_ne_nil_of_left_ne_nil color.red.text_ne_nil _
  have isFunction : Shadow.scanColorFunction? true false (color.text ++ rest) =
      some (color.text, rest) := by
    unfold Shadow.scanColorFunction?
    simp [isName, isInside, isBehind, isThere]
  obtain ⟨more, startsWithR⟩ := color.exists_text_cons
  have noHex : scanHexDigits? (color.text ++ rest) = none := by
    rw [startsWithR]
    exact scanHexDigits?_eq_none (by decide) _
  unfold scanStopColor?
  rw [noHex, isFunction]

/--
Behind a written color the number of a position is taken or left, and no color
comes before the next stop.
-/
def IsPassedOver (part rest : List Char) : Prop :=
  ∃ position? after, scanPosition (part ++ '%' :: rest) = (position?, after) ∧
    after.length ≤ (part ++ '%' :: rest).length ∧
    ∀ count, HoldsColors (foundIn scanStop? rest) count →
      HoldsColors (foundIn scanStop? after) count

theorem foundIn_percent
    (rest : List Char) :
    foundIn scanStop? ('%' :: rest) = foundIn scanStop? rest :=
  foundIn_cons (scanStop?_mark (by decide) rest)

/-- A numeral is the position, unless it is negative. -/
theorem isPassedOver_numeral
    {numeral : PlainNumeral}
    (startsWhole : numeral.whole ≠ [])
    (rest : List Char) :
    IsPassedOver numeral.text rest := by
  have ends : Number.EndsNumeral ('%' :: rest) :=
    Number.endsNumeral_cons (by decide) rest
  cases isSigned : numeral.negative with
  | false =>
      have isUnsigned : numeral.text = numeral.unsignedText := by
        simp [PlainNumeral.text, isSigned]
      have isTaken := numeral.scanUnsigned?_unsignedText startsWhole ends
      refine ⟨some
        ((⟨false, numeral.whole, numeral.fraction, 0⟩ : Number.Literal).toFloat /
          100.0), rest, ?_, ?_, fun _ holds => holds⟩
      · rw [isUnsigned, scanPosition, isTaken]
        rfl
      · rw [List.length_append, List.length_cons]
        omega
  | true =>
      have isNegative : numeral.text = '-' :: numeral.unsignedText := by
        simp [PlainNumeral.text, isSigned]
      -- A position has no sign, so the numeral is left, and its characters are
      -- marks.
      refine ⟨none, numeral.text ++ '%' :: rest, ?_, Nat.le_refl _,
        fun count holds => ?_⟩
      · rw [isNegative]
        exact scanPosition_eq_none (by decide) _
      · have areMarks : ∀ c ∈ numeral.text, isMark c = true := fun c isMember =>
          isMark_of_isNumeralChar (PlainNumeral.isNumeralChar_of_mem_text isMember)
        rw [foundIn_marks areMarks, foundIn_percent]
        exact holds

/-- A word for a double that is not finite is no position, and no color either. -/
theorem isPassedOver_word
    {part : List Char}
    (isWord : String.ofList part ∈ Number.infiniteWords)
    (rest : List Char) :
    IsPassedOver part rest := by
  have infinite : Color.parse (String.ofList ['i', 'n', 'f']) = .ok none := by rfl
  have undefined : Color.parse (String.ofList ['n', 'a', 'n']) = .ok none := by rfl
  have infiniteIsWord : foundIn scanStop? (['i', 'n', 'f'] ++ '%' :: rest) =
      (['i', 'n', 'f'], none) :: foundIn scanStop? ('%' :: rest) :=
    foundIn_word (by decide) rfl rest
  have undefinedIsWord : foundIn scanStop? (['n', 'a', 'n'] ++ '%' :: rest) =
      (['n', 'a', 'n'], none) :: foundIn scanStop? ('%' :: rest) :=
    foundIn_word (by decide) rfl rest
  refine ⟨none, part ++ '%' :: rest, ?_, Nat.le_refl _, fun count holds => ?_⟩
  · rcases Number.infiniteWords_cases isWord with rfl | rfl | rfl
    all_goals exact scanPosition_eq_none (by decide) _
  · rw [← foundIn_percent] at holds
    rcases Number.infiniteWords_cases isWord with rfl | rfl | rfl
    · rw [infiniteIsWord]
      exact .word infinite holds
    · rw [List.cons_append, foundIn_cons (scanStop?_mark (by decide) _),
        infiniteIsWord]
      exact .word infinite holds
    · rw [undefinedIsWord]
      exact .word undefined holds

namespace StopText

variable (stop : StopText) (rest : List Char)

theorem isPassedOver_part :
    IsPassedOver stop.part rest := by
  rcases stop.partForm with ⟨numeral, startsWhole, isText⟩ | isWord
  · rw [isText]
    exact isPassedOver_numeral startsWhole rest
  · exact isPassedOver_word isWord rest

/-- The blank between a color and its position is one. -/
theorem skipBlank_part :
    skipBlank (' ' :: (stop.part ++ rest)) = stop.part ++ rest := by
  rcases stop.partForm with ⟨numeral, _, isText⟩ | isWord
  · rw [isText]
    exact numeral.skipBlank_text rest
  · rcases Number.infiniteWords_cases isWord with isPart | isPart | isPart
    all_goals
      rw [isPart]
      rfl

/-- A written stop is one color more. -/
theorem holdsColors_text
    {count : Nat}
    (holds : HoldsColors (foundIn scanStop? rest) count) :
    HoldsColors (foundIn scanStop? (stop.text ++ rest)) (count + 1) := by
  obtain ⟨position?, after, isPosition, isShort, keeps⟩ :=
    stop.isPassedOver_part rest
  obtain ⟨color, isColor⟩ := stop.color.exists_parse_text
  have isForm : stop.text ++ rest =
      stop.color.text ++ ' ' :: (stop.part ++ '%' :: rest) := by
    simp [text]
  have isTaken : scanStop? (stop.text ++ rest) =
      some ((stop.color.text, position?), after) := by
    rw [isForm, scanStop?, scanStopColor?_text]
    simp only [Option.map_some, skipBlank_part, isPosition]
  have isShorter : after.length < (stop.text ++ rest).length := by
    rw [isForm, List.length_append, List.length_cons]
    omega
  rw [foundIn_of_taken isTaken isShorter]
  exact .color isColor (keeps count holds)

end StopText

/-! Several stops. -/

/-- Stops behind another one as they are written. -/
def printedBehind (stops : List StopText) : List Char :=
  stops.flatMap (fun stop => ", ".toList ++ stop.text)

theorem holdsColors_printedBehind
    (stops : List StopText) :
    HoldsColors (foundIn scanStop? (printedBehind stops)) stops.length := by
  induction stops with
  | nil =>
      rw [printedBehind, List.flatMap_nil, foundIn_nil]
      exact .nil
  | cons stop rest inductionHypothesis =>
      have areMarks : ∀ c ∈ ", ".toList, isMark c = true :=
        List.all_eq_true.mp (by decide)
      have isForm : printedBehind (stop :: rest) =
          ", ".toList ++ (stop.text ++ printedBehind rest) := by
        simp [printedBehind]
      rw [isForm, foundIn_marks areMarks]
      exact stop.holdsColors_text _ inductionHypothesis

/-- Stops as they are written one after another. -/
def printed (stops : List StopText) : List Char :=
  (joinWith ", " (stops.map (fun stop => String.ofList stop.text))).toList

theorem printed_cons
    (stop : StopText)
    (rest : List StopText) :
    printed (stop :: rest) = stop.text ++ printedBehind rest := by
  rw [printed, List.map_cons, toList_joinWith_cons, printedBehind, List.flatMap_map,
    String.toList_ofList]
  simp only [String.toList_ofList]

/-- Written stops are as many colors. -/
theorem holdsColors_printed
    {stops : List StopText}
    (isThere : stops ≠ []) :
    HoldsColors (foundIn scanStop? (printed stops)) stops.length := by
  obtain ⟨stop, rest, rfl⟩ := List.exists_cons_of_ne_nil isThere
  rw [printed_cons, List.length_cons]
  exact stop.holdsColors_text _ (holdsColors_printedBehind rest)

/-- What a text of stops ends with does not change when more stops are written. -/
theorem getLast?_append_printedBehind
    {front : List Char}
    (endsInPercent : front.getLast? = some '%')
    (stops : List StopText) :
    (front ++ printedBehind stops).getLast? = some '%' := by
  induction stops generalizing front with
  | nil => rwa [printedBehind, List.flatMap_nil, List.append_nil]
  | cons stop rest inductionHypothesis =>
      have isForm : front ++ printedBehind (stop :: rest) =
          front ++ (", ".toList ++ stop.color.text ++ ' ' :: stop.part ++ ['%']) ++
            printedBehind rest := by
        simp [printedBehind, StopText.text]
      rw [isForm]
      refine inductionHypothesis ?_
      rw [← List.append_assoc, List.getLast?_concat]

theorem getLast?_printed
    {stops : List StopText}
    (isThere : stops ≠ []) :
    (printed stops).getLast? = some '%' := by
  obtain ⟨stop, rest, rfl⟩ := List.exists_cons_of_ne_nil isThere
  have isForm : stop.text = stop.color.text ++ ' ' :: stop.part ++ ['%'] := by
    simp [StopText.text]
  rw [printed_cons]
  refine getLast?_append_printedBehind ?_ rest
  rw [isForm, List.getLast?_concat]

/-- Written stops are trimmed behind a front that begins with no blank. -/
theorem trimmed_append_printed
    {front : List Char}
    {stops : List StopText}
    (isThere : stops ≠ [])
    (isInk : ∀ c, front.head? = some c → isBlank c = false) :
    Trimmed (front ++ printed stops) := by
  constructor
  · intro c isFirst
    cases front with
    | nil =>
        obtain ⟨stop, rest, rfl⟩ := List.exists_cons_of_ne_nil isThere
        obtain ⟨more, isForm⟩ := stop.color.exists_text_cons
        rw [List.nil_append, printed_cons, StopText.text, isForm] at isFirst
        cases isFirst
        decide
    | cons first more => exact isInk c isFirst
  · intro c isLast
    rw [List.getLast?_append, getLast?_printed isThere] at isLast
    cases isLast
    decide

/-- A stop that was read from a text is written as a color and a number. -/
theorem exists_text_of_isRead
    {stop : GradientStop}
    (isRead : IsRead stop) :
    ∃ written : StopText, stop.text = .ok (String.ofList written.text) := by
  obtain ⟨color, isColor⟩ := Color.exists_toRgb_of_hasShares isRead.hasShares
  obtain ⟨position, isPosition⟩ := isRead.hasPosition
  refine ⟨⟨color, (Number.fixedText 1 (position * 100.0)).toList, ?_⟩, ?_⟩
  · rw [String.ofList_toList]
    exact Number.fixedText_cases Nat.one_pos (position * 100.0)
  · have isPercent : stop.position.percentText =
        .ok (Number.fixedText 1 (position * 100.0)) := by
      rw [isPosition]
      rfl
    rw [GradientStop.text, isColor, isPercent]
    refine congrArg Except.ok ?_
    rw [← String.toList_inj]
    simp [StopText.text]

/-- The stops of a gradient that was read are written as so many texts. -/
theorem exists_mapM_text
    {stops : List GradientStop}
    (areRead : ∀ stop ∈ stops, IsRead stop) :
    ∃ written : List StopText, written.length = stops.length ∧
      stops.mapM GradientStop.text =
        .ok (written.map (fun stop => String.ofList stop.text)) := by
  induction stops with
  | nil => exact ⟨[], rfl, rfl⟩
  | cons stop rest inductionHypothesis =>
      obtain ⟨isRead, restRead⟩ := List.forall_mem_cons.mp areRead
      obtain ⟨written, isText⟩ := exists_text_of_isRead isRead
      obtain ⟨others, isLength, areTexts⟩ := inductionHypothesis restRead
      refine ⟨written :: others,
        by rw [List.length_cons, isLength, List.length_cons], ?_⟩
      rw [List.mapM_cons, isText, areTexts]
      rfl

end DesignTokens.Gradient
