import DesignTokens.Proofs.Text.Blank
import DesignTokens.Proofs.Value.Curves

namespace DesignTokens

/-!
# Curves among words

A curve is searched from the front of a text.  A word that holds none is passed
over, even where the next word could go on a curve that the first one begins,
when that next word is no coordinate and begins with no mark.  So the first curve
among words is the first one that was written there.
-/

open DesignTokens.Text

namespace CubicBezier

/-! Texts without curves. -/

theorem mem_of_scan?
    {chars : List Char}
    {found : List (List Char) × List Char}
    (isTaken : scan? chars = some found) :
    '(' ∈ chars := by
  unfold scan? at isTaken
  simp only [Option.bind_eq_bind, Option.bind_eq_some_iff] at isTaken
  obtain ⟨rest, isName, inside, isOpen, _⟩ := isTaken
  have inRest : '(' ∈ skipBlank rest :=
    (prefix_of_after? isOpen).subset List.mem_cons_self
  exact (suffix_of_after? isName).subset ((List.dropWhile_suffix _).subset inRest)

/-- Without a parenthesis there is no curve. -/
theorem find?_eq_none_of_not_mem
    {chars : List Char}
    (noOpening : '(' ∉ chars) :
    find? chars = none := by
  have declined :
      ∀ suffix, suffix ≠ [] → suffix <:+ chars → scan? (suffix ++ []) = none := by
    intro suffix _ isEnd
    rw [List.append_nil, Option.eq_none_iff_forall_ne_some]
    intro found isTaken
    exact noOpening (isEnd.subset (mem_of_scan? isTaken))
  have isSearched := findFirst_append [] declined
  rw [List.append_nil] at isSearched
  rw [find?, isSearched]
  rfl

theorem scan?_cons_of_ne
    {c : Char}
    (isOther : c ≠ 'c')
    (rest : List Char) :
    scan? (c :: rest) = none := by
  have isName : "cubic-bezier".toList = 'c' :: "ubic-bezier".toList := by decide
  have noName : afterText? "cubic-bezier" (c :: rest) = none := by
    rw [afterText?, isName, after?, if_neg isOther]
  unfold scan?
  rw [noName]
  rfl

/-- A text without the first letter of a curve is passed over. -/
theorem find?_append_of_not_mem
    {front : List Char}
    (noLetter : 'c' ∉ front)
    (rest : List Char) :
    find? (front ++ rest) =
      (find? rest).map (fun found => (front ++ found.1, found.2)) := by
  refine findFirst_append rest fun chars isThere isEnd => ?_
  obtain ⟨c, more, rfl⟩ := List.exists_cons_of_ne_nil isThere
  refine scan?_cons_of_ne ?_ _
  rintro rfl
  exact noLetter (isEnd.subset List.mem_cons_self)

/-! Words in front. -/

/-- A text that begins with a blank and goes on no curve that begins before it. -/
structure Blocks (stop : List Char) : Prop where
  isBlank : ∃ c rest, stop = c :: rest ∧ isBlank c = true
  noMark : ∀ mark ∈ marks, after? [mark] (skipBlank stop) = none
  noCoordinate : ∀ mark ∈ marks, scanCoordinateUpTo? mark stop = none

/-- A part that is no coordinate stops every curve. -/
theorem blocks_of_part
    {chars rest : List Char}
    (isPart : IsPart chars)
    (notTaken : isCoordinate chars = false)
    (isEnd : rest.takeWhile isCoordinateChar = []) :
    Blocks (' ' :: (chars ++ rest)) := by
  have isSpace : ∀ c ∈ [' '], Text.isBlank c = true :=
    List.forall_mem_singleton.mpr isBlank_space
  refine ⟨⟨' ', _, rfl, isBlank_space⟩, fun mark isMark => ?_,
    fun mark isMark => ?_⟩
  · obtain ⟨c, more, rfl⟩ := List.exists_cons_of_ne_nil isPart.isThere
    have notMark : c ≠ mark := by
      rintro rfl
      exact isPart.noMark c List.mem_cons_self isMark
    rw [skipBlank, List.dropWhile_cons_of_pos isBlank_space, List.cons_append,
      List.dropWhile_cons_of_neg (by simp [isPart.ink c]), after?, if_neg notMark]
  · have isScanned := scanCoordinateUpTo?_part isPart isSpace isMark isEnd
    rwa [notTaken, if_neg Bool.false_ne_true] at isScanned

theorem not_isCoordinateChar_of_isBlank
    {c : Char}
    (isBlank : Text.isBlank c = true) :
    isCoordinateChar c = false := by
  cases isTaken : isCoordinateChar c with
  | false => rfl
  | true =>
      have isNumeral : Number.isNumeralChar c = true := by
        rcases Bool.or_eq_true_iff.mp isTaken with decimal | isPoint
        · exact Number.isNumeralChar_of_isDecimal decimal
        · rw [eq_of_beq isPoint]
          exact Number.isNumeralChar_point
      cases (Number.not_isBlank_of_isNumeralChar isNumeral).symm.trans isBlank

theorem suffix_of_scanCoordinate?
    {chars : List Char}
    {taken : List Char × List Char}
    (isTaken : scanCoordinate? chars = some taken) :
    taken.2 <:+ chars := by
  unfold scanCoordinate? at isTaken
  simp only at isTaken
  split at isTaken
  · cases isTaken
  · cases isTaken
    refine (List.dropWhile_suffix _).trans ?_
    rcases scanMinus_cases chars with isSame | ⟨rest, rfl, isRest⟩
    · rw [isSame]
    · rw [isRest]
      exact List.suffix_cons _ _

theorem suffix_of_scanCoordinateUpTo?
    {mark : Char}
    {chars : List Char}
    {taken : List Char × List Char}
    (isTaken : scanCoordinateUpTo? mark chars = some taken) :
    taken.2 <:+ chars := by
  unfold scanCoordinateUpTo? at isTaken
  simp only [Option.bind_eq_bind, Option.bind_eq_some_iff, Option.pure_def,
    Option.some.injEq] at isTaken
  obtain ⟨digits, isDigits, rest, isAfter, rfl⟩ := isTaken
  exact (suffix_of_after? isAfter).trans ((List.dropWhile_suffix _).trans
    ((suffix_of_scanCoordinate? isDigits).trans (List.dropWhile_suffix _)))

section Blocked

variable {stop : List Char} (blocks : Blocks stop)
include blocks

/-- A mark behind a word is found in the word or not at all. -/
theorem Blocks.after?_skipBlank
    {front : List Char}
    (ink : ∀ c ∈ front, Text.isBlank c = false)
    {mark : Char}
    (isMark : mark ∈ marks) :
    after? [mark] (skipBlank (front ++ stop)) =
      (after? [mark] (skipBlank front)).map (· ++ stop) := by
  cases front with
  | nil => exact blocks.noMark mark isMark
  | cons c front =>
      have isInk := ink c List.mem_cons_self
      obtain ⟨blank, rest, rfl, isBlank⟩ := blocks.isBlank
      have isOther : blank ∉ [mark] := by
        rw [List.mem_singleton]
        rintro rfl
        cases isBlank.symm.trans (not_of_mem_marks isMark).2
      rw [skipBlank, skipBlank, List.cons_append,
        List.dropWhile_cons_of_neg (by simp [isInk]),
        List.dropWhile_cons_of_neg (by simp [isInk]), ← List.cons_append,
        after?_append_of_not_mem isOther]

theorem Blocks.scanCoordinate?_append
    {front : List Char}
    (isThere : front ≠ []) :
    scanCoordinate? (front ++ stop) =
      (scanCoordinate? front).map (fun taken => (taken.1, taken.2 ++ stop)) := by
  obtain ⟨blank, rest, rfl, isBlank⟩ := blocks.isBlank
  have isOther : isCoordinateChar blank = false :=
    not_isCoordinateChar_of_isBlank isBlank
  unfold scanCoordinate?
  simp only [scanMinus_append isThere]
  rw [takeWhile_append_of_not isOther, dropWhile_append_of_not isOther]
  split
  · rfl
  · rfl

/-- Behind a word without blanks a coordinate goes no further than the word. -/
theorem Blocks.scanCoordinateUpTo?_append
    {front : List Char}
    (ink : ∀ c ∈ front, Text.isBlank c = false)
    {mark : Char}
    (isMark : mark ∈ marks) :
    scanCoordinateUpTo? mark (front ++ stop) =
      (scanCoordinateUpTo? mark front).map
        (fun taken => (taken.1, taken.2 ++ stop)) := by
  cases front with
  | nil => exact blocks.noCoordinate mark isMark
  | cons c front =>
      have isInk := ink c List.mem_cons_self
      have isFront : skipBlank (c :: front) = c :: front := by
        rw [skipBlank, List.dropWhile_cons_of_neg (by simp [isInk])]
      have isLonger : skipBlank (c :: front ++ stop) = c :: front ++ stop := by
        rw [List.cons_append, skipBlank,
          List.dropWhile_cons_of_neg (by simp [isInk])]
      unfold scanCoordinateUpTo?
      rw [isFront, isLonger,
        blocks.scanCoordinate?_append (List.cons_ne_nil c front)]
      cases isTaken : scanCoordinate? (c :: front) with
      | none => rfl
      | some taken =>
          have restInk : ∀ d ∈ taken.2, Text.isBlank d = false :=
            fun d isChar =>
              ink d ((suffix_of_scanCoordinate? isTaken).subset isChar)
          have isAfter := blocks.after?_skipBlank restInk isMark
          simp only [Option.map_some, Option.bind_eq_bind, Option.bind_some,
            isAfter]
          cases after? [mark] (skipBlank taken.2) <;> rfl

/-- What is done with a coordinate in a word is done with it in a longer text. -/
theorem Blocks.bind_coordinate
    {β : Type}
    {front : List Char}
    (ink : ∀ c ∈ front, Text.isBlank c = false)
    {mark : Char}
    (isMark : mark ∈ marks)
    {next later : List Char × List Char → Option β}
    (isSame : ∀ taken :
      List Char × List Char, (∀ c ∈ taken.2, Text.isBlank c = false) →
        next (taken.1, taken.2 ++ stop) = later taken) :
    (scanCoordinateUpTo? mark (front ++ stop)).bind next =
      (scanCoordinateUpTo? mark front).bind later := by
  rw [blocks.scanCoordinateUpTo?_append ink isMark]
  cases isTaken : scanCoordinateUpTo? mark front with
  | none => rfl
  | some taken =>
      exact isSame taken fun c isChar =>
        ink c ((suffix_of_scanCoordinateUpTo? isTaken).subset isChar)

/--
What is done behind the name and the parenthesis in a word is done
in a longer text.
-/
theorem Blocks.bind_opening
    {β : Type}
    {front : List Char}
    (ink : ∀ c ∈ front, Text.isBlank c = false)
    {next later : List Char → Option β}
    (isSame : ∀ rest, (∀ c ∈ rest, Text.isBlank c = false) →
      next (rest ++ stop) = later rest) :
    ((afterText? "cubic-bezier" (front ++ stop)).bind fun rest =>
        (after? ['('] (skipBlank rest)).bind next) =
      (afterText? "cubic-bezier" front).bind fun rest =>
        (after? ['('] (skipBlank rest)).bind later := by
  obtain ⟨blank, more, isForm, isBlank⟩ := blocks.isBlank
  have notInName : blank ∉ "cubic-bezier".toList := by
    have nameInk : "cubic-bezier".toList.all (fun c => !Text.isBlank c) = true := by
      decide
    intro isLetter
    have isInk := List.all_eq_true.mp nameInk blank isLetter
    rw [isBlank] at isInk
    cases isInk
  have isName : afterText? "cubic-bezier" (front ++ stop) =
      (afterText? "cubic-bezier" front).map (· ++ stop) := by
    rw [isForm]
    exact after?_append_of_not_mem notInName front more
  rw [isName]
  cases isBehind : afterText? "cubic-bezier" front with
  | none => rfl
  | some behind =>
      have behindInk : ∀ c ∈ behind, Text.isBlank c = false :=
        fun c isChar => ink c ((suffix_of_after? isBehind).subset isChar)
      rw [Option.map_some, Option.bind_some, Option.bind_some,
        blocks.after?_skipBlank behindInk (by decide)]
      cases isInside : after? ['('] (skipBlank behind) with
      | none => rfl
      | some inside =>
          exact isSame inside fun c isChar => behindInk c
            ((List.dropWhile_suffix _).subset
              ((suffix_of_after? isInside).subset isChar))

/-- A curve that begins in a word without blanks ends in it. -/
theorem Blocks.scan?_append
    {front : List Char}
    (ink : ∀ c ∈ front, Text.isBlank c = false) :
    scan? (front ++ stop) =
      (scan? front).map (fun taken => (taken.1, taken.2 ++ stop)) := by
  unfold scan?
  simp only [Option.bind_eq_bind, Option.map_bind, Function.comp_def]
  refine blocks.bind_opening ink fun inside inkInside => ?_
  refine blocks.bind_coordinate inkInside (by decide) fun first inkFirst => ?_
  refine blocks.bind_coordinate inkFirst (by decide) fun second inkSecond => ?_
  refine blocks.bind_coordinate inkSecond (by decide) fun third inkThird => ?_
  exact blocks.bind_coordinate inkThird (by decide) fun fourth _ => rfl

/-- A word that holds no curve is passed over. -/
theorem Blocks.find?_append
    {word : List Char}
    (ink : ∀ c ∈ word, Text.isBlank c = false)
    (noCurve : find? word = none) :
    find? (word ++ stop) =
      (find? stop).map (fun found => (word ++ found.1, found.2)) := by
  refine findFirst_append stop fun chars isThere isEnd => ?_
  rw [blocks.scan?_append fun c isChar => ink c (isEnd.subset isChar),
    eq_none_of_findFirst noCurve isThere isEnd]
  rfl

end Blocked

/-! Written curves. -/

theorem Parts.opening_not_mem_inside
    {parts : Parts}
    (areParts : ∀ chars ∈ parts.texts, IsPart chars)
    {rest : List Char}
    (noOpening : '(' ∉ rest) :
    '(' ∉ parts.inside rest := by
  simp only [texts, List.forall_mem_cons] at areParts
  obtain ⟨isX1, isY1, isX2, isY2, _⟩ := areParts
  have notIn {chars : List Char} (isPart : IsPart chars) : '(' ∉ chars :=
    fun isChar => isPart.noMark '(' isChar (by decide)
  have isOther : '(' ≠ ',' ∧ '(' ≠ ' ' ∧ '(' ≠ ')' := by decide
  simp [inside, isOther, noOpening, notIn isX1, notIn isY1, notIn isX2, notIn isY2]

/-- A written curve is found if its parts are coordinates, and otherwise none is. -/
theorem Parts.find?_written
    {parts : Parts}
    (areParts : ∀ chars ∈ parts.texts, IsPart chars)
    {rest : List Char}
    (noOpening : '(' ∉ rest) :
    find? (parts.written rest) =
      if parts.texts.all isCoordinate then some ([], parts.texts, rest)
      else none := by
  have isTaken := scan?_written areParts rest
  have isForm : parts.written rest =
      'c' ::
        ("ubi".toList ++ 'c' :: '-' :: ("bezier(".toList ++ parts.inside rest)) :=
    rfl
  rw [isForm] at isTaken ⊢
  rw [find?, findFirst, isTaken]
  cases parts.texts.all isCoordinate with
  | true => rfl
  | false =>
      have noneInside : find? (parts.inside rest) = none :=
        find?_eq_none_of_not_mem (opening_not_mem_inside areParts noOpening)
      have noneBehind : find? ('-' :: ("bezier(".toList ++ parts.inside rest)) =
          none := by
        rw [← List.cons_append, find?_append_of_not_mem (by decide), noneInside]
        rfl
      have noSecond :
          scan? ('c' :: '-' :: ("bezier(".toList ++ parts.inside rest)) = none :=
        rfl
      have noneLater :
          find? ("ubi".toList ++ 'c' :: '-' ::
            ("bezier(".toList ++ parts.inside rest)) = none := by
        rw [find?_append_of_not_mem (by decide), find?, findFirst, noSecond]
        rw [find?] at noneBehind
        rw [noneBehind]
        rfl
      rw [find?] at noneLater
      rw [noneLater]
      rfl

end CubicBezier

end DesignTokens
