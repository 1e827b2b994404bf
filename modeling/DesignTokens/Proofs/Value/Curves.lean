import DesignTokens.Proofs.Value.NumberTexts

namespace DesignTokens.CubicBezier

/-!
# Easing curves that are written and read again

A curve is written as a function of its four coordinates.  Where these are
numerals, the function is found again and read as a curve, and what stands in
front of it and behind it is left.
-/

open DesignTokens.Number DesignTokens.Text

/-! Written coordinates. -/

/-- The marks of a written curve. -/
def marks : List Char :=
  ['(', ',', ')']

theorem not_of_mem_marks
    {mark : Char}
    (isMark : mark ∈ marks) :
    isCoordinateChar mark = false ∧ isBlank mark = false := by
  have each : marks.all (fun mark => !isCoordinateChar mark && !isBlank mark) =
      true := by
    decide
  simpa using List.all_eq_true.mp each mark isMark

/-- A text without blanks and marks, as it can stand in front of a mark. -/
structure IsPart (chars : List Char) : Prop where
  isThere : chars ≠ []
  ink : ∀ c ∈ chars, isBlank c = false
  noMark : ∀ c ∈ chars, c ∉ marks

/-- Whether a part is taken as a coordinate. -/
def isCoordinate (chars : List Char) : Bool :=
  !(Number.scanMinus chars).2.isEmpty &&
    (Number.scanMinus chars).2.all isCoordinateChar

theorem scanMinus_cases
    (chars : List Char) :
    Number.scanMinus chars = (false, chars) ∨
      ∃ rest, chars = '-' :: rest ∧ Number.scanMinus chars = (true, rest) := by
  unfold Number.scanMinus
  split
  · exact .inr ⟨_, rfl, rfl⟩
  · exact .inl rfl

theorem scanMinus_append
    {chars : List Char}
    (isThere : chars ≠ [])
    (rest : List Char) :
    Number.scanMinus (chars ++ rest) =
      ((Number.scanMinus chars).1, (Number.scanMinus chars).2 ++ rest) := by
  obtain ⟨c, more, rfl⟩ := List.exists_cons_of_ne_nil isThere
  by_cases isMinus : c = '-'
  · rw [isMinus]
    rfl
  · simp [Number.scanMinus, isMinus]

/-- What follows an optional sign is part of the text. -/
theorem mem_of_mem_scanMinus
    {chars : List Char}
    {c : Char}
    (isChar : c ∈ (Number.scanMinus chars).2) :
    c ∈ chars := by
  rcases scanMinus_cases chars with isSame | ⟨rest, isSigned, isRest⟩
  · rwa [isSame] at isChar
  · rw [isRest] at isChar
    rw [isSigned]
    exact List.mem_cons_of_mem _ isChar

/--
A part of coordinate characters is the coordinate in front of what is
no such character.
-/
theorem scanCoordinate?_coordinate
    {chars : List Char}
    (isThere : chars ≠ [])
    (isTaken : isCoordinate chars = true)
    {rest : List Char}
    (isEnd : rest.takeWhile isCoordinateChar = []) :
    scanCoordinate? (chars ++ rest) = some (chars, rest) := by
  simp only [isCoordinate, Bool.and_eq_true, Bool.not_eq_true',
    List.all_eq_true] at isTaken
  obtain ⟨hasDigits, areDigits⟩ := isTaken
  have isLeft : rest.dropWhile isCoordinateChar = rest := by
    have isSplit :=
      List.takeWhile_append_dropWhile (p := isCoordinateChar) (l := rest)
    rwa [isEnd, List.nil_append] at isSplit
  unfold scanCoordinate?
  simp only [scanMinus_append isThere, List.takeWhile_append_of_pos areDigits,
    List.dropWhile_append_of_pos areDigits, isEnd, isLeft, List.append_nil,
    hasDigits]
  rcases scanMinus_cases chars with isSame | ⟨more, rfl, isRest⟩
  · simp [isSame]
  · simp [isRest]

/-- Where a part holds another character, no coordinate reaches the end of it. -/
theorem scanCoordinate?_other
    {chars : List Char}
    (isPart : IsPart chars)
    (notTaken : isCoordinate chars = false)
    {rest : List Char}
    (isEnd : rest.takeWhile isCoordinateChar = []) :
    scanCoordinate? (chars ++ rest) = none ∨
      ∃ taken c more, scanCoordinate? (chars ++ rest) = some (taken, c :: more) ∧
        c ∈ chars := by
  unfold scanCoordinate?
  simp only [scanMinus_append isPart.isThere]
  cases isLeft : (Number.scanMinus chars).2.dropWhile isCoordinateChar with
  | nil =>
      -- Only coordinate characters stand behind the sign, so there are none at all.
      have areDigits := List.dropWhile_eq_nil_iff.mp isLeft
      have isEmpty : (Number.scanMinus chars).2 = [] := by
        by_contra hasDigits
        have isTaken : isCoordinate chars = true := by
          simpa [isCoordinate, hasDigits] using areDigits
        cases isTaken.symm.trans notTaken
      left
      rw [isEmpty, List.nil_append, isEnd]
      rfl
  | cons c more =>
      have isOther :
          ∃ d ∈ (Number.scanMinus chars).2, isCoordinateChar d = false := by
        by_contra noOther
        have isNone : (Number.scanMinus chars).2.dropWhile isCoordinateChar = [] :=
          List.dropWhile_eq_nil_iff.mpr fun d isChar => by
            by_contra isOther
            exact noOther ⟨d, isChar, by simpa using isOther⟩
        cases isLeft.symm.trans isNone
      have inChars : c ∈ chars :=
        mem_of_mem_scanMinus
          ((List.dropWhile_suffix _).subset (isLeft ▸ List.mem_cons_self))
      rw [List.dropWhile_append, isLeft]
      split
      · exact .inl rfl
      · exact .inr ⟨_, c, more ++ rest, rfl, inChars⟩

/--
A part is taken with the mark behind it if it is a coordinate, and nothing is
taken otherwise.
-/
theorem scanCoordinateUpTo?_part
    {chars front : List Char}
    (isPart : IsPart chars)
    (isFront : ∀ c ∈ front, isBlank c = true)
    {mark : Char}
    (isMark : mark ∈ marks)
    {rest : List Char}
    (isEnd : rest.takeWhile isCoordinateChar = []) :
    scanCoordinateUpTo? mark (front ++ (chars ++ rest)) =
      if isCoordinate chars then
        (after? [mark] (skipBlank rest)).map (fun later => (chars, later))
      else none := by
  have isInk : skipBlank (front ++ (chars ++ rest)) = chars ++ rest := by
    obtain ⟨c, more, rfl⟩ := List.exists_cons_of_ne_nil isPart.isThere
    rw [skipBlank, List.dropWhile_append_of_pos isFront, List.cons_append,
      List.dropWhile_cons_of_neg (by simp [isPart.ink c])]
  unfold scanCoordinateUpTo?
  rw [isInk]
  cases isTaken : isCoordinate chars with
  | true =>
      rw [scanCoordinate?_coordinate isPart.isThere isTaken isEnd, if_pos rfl]
      cases isAfter : after? [mark] (skipBlank rest) <;> simp [isAfter]
  | false =>
      rcases scanCoordinate?_other isPart isTaken isEnd with
        isNone | ⟨taken, c, more, isSome, inChars⟩
      · rw [isNone]
        rfl
      · have notMark : c ≠ mark := by
          rintro rfl
          exact isPart.noMark c inChars isMark
        have isNext : skipBlank (c :: more) = c :: more := by
          rw [skipBlank,
            List.dropWhile_cons_of_neg (by simp [isPart.ink c inChars])]
        rw [isSome]
        simp [isNext, after?, notMark]

theorem scanCoordinateUpTo?_mark
    {chars front : List Char}
    (isPart : IsPart chars)
    (isFront : ∀ c ∈ front, isBlank c = true)
    {mark : Char}
    (isMark : mark ∈ marks)
    (rest : List Char) :
    scanCoordinateUpTo? mark (front ++ (chars ++ mark :: rest)) =
      if isCoordinate chars then some (chars, rest) else none := by
  obtain ⟨notTaken, isInk⟩ := not_of_mem_marks isMark
  rw [scanCoordinateUpTo?_part isPart isFront isMark
    (List.takeWhile_cons_of_neg (by simp [notTaken])), skipBlank,
    List.dropWhile_cons_of_neg (by simp [isInk])]
  simp [after?]

/-! Written curves. -/

/-- The texts of the coordinates of a curve. -/
structure Parts where
  x1 : List Char
  y1 : List Char
  x2 : List Char
  y2 : List Char

namespace Parts

/-- The texts in order. -/
def texts (parts : Parts) : List (List Char) :=
  [parts.x1, parts.y1, parts.x2, parts.y2]

/-- What is written behind the opening parenthesis, and a text behind it. -/
def inside (parts : Parts) (rest : List Char) : List Char :=
  parts.x1 ++ ',' :: ([' '] ++ (parts.y1 ++ ',' :: ([' '] ++
    (parts.x2 ++ ',' :: ([' '] ++ (parts.y2 ++ ')' :: rest))))))

/-- The written curve, and a text behind it. -/
def written (parts : Parts) (rest : List Char) : List Char :=
  "cubic-bezier(".toList ++ parts.inside rest

theorem written_append
    (parts : Parts)
    (rest : List Char) :
    parts.written [] ++ rest = parts.written rest := by
  have isInside : parts.inside [] ++ rest = parts.inside rest := by
    simp [inside]
  exact (List.append_assoc _ _ _).trans
    (congrArg ("cubic-bezier(".toList ++ ·) isInside)

/--
A written curve is taken whole if its parts are coordinates, and nothing is
taken otherwise.
-/
theorem scan?_written
    {parts : Parts}
    (areParts : ∀ chars ∈ parts.texts, IsPart chars)
    (rest : List Char) :
    scan? (parts.written rest) =
      if parts.texts.all isCoordinate then some (parts.texts, rest) else none := by
  simp only [texts, List.forall_mem_cons] at areParts
  obtain ⟨isX1, isY1, isX2, isY2, _⟩ := areParts
  have isName : afterText? "cubic-bezier" (parts.written rest) =
      some ('(' :: parts.inside rest) :=
    rfl
  have noBlank : isBlank '(' = false := by decide
  have isOpen : skipBlank ('(' :: parts.inside rest) =
      '(' :: parts.inside rest := by
    rw [skipBlank, List.dropWhile_cons_of_neg (by simp [noBlank])]
  have isInside :
      after? ['('] ('(' :: parts.inside rest) = some (parts.inside rest) := by
    simp [after?]
  have isSpace : ∀ c ∈ [' '], isBlank c = true :=
    List.forall_mem_singleton.mpr isBlank_space
  have isFirst (later : List Char) :
      scanCoordinateUpTo? ',' (parts.x1 ++ ',' :: later) =
        if isCoordinate parts.x1 then some (parts.x1, later) else none :=
    scanCoordinateUpTo?_mark isX1 (List.forall_mem_nil _) (by decide) later
  have isSecond :=
    scanCoordinateUpTo?_mark isY1 isSpace (show ',' ∈ marks by decide)
  have isThird := scanCoordinateUpTo?_mark isX2 isSpace (show ',' ∈ marks by decide)
  have isFourth :=
    scanCoordinateUpTo?_mark isY2 isSpace (show ')' ∈ marks by decide)
  unfold scan?
  rw [isName]
  simp only [Option.bind_eq_bind, Option.bind_some, isOpen, isInside]
  simp only [inside, isFirst, texts, List.all_cons, List.all_nil, Bool.and_true]
  cases isCoordinate parts.x1
  · rfl
  simp only [if_true, Option.bind_some, isSecond, Bool.true_and]
  cases isCoordinate parts.y1
  · rfl
  simp only [if_true, Option.bind_some, isThird, Bool.true_and]
  cases isCoordinate parts.x2
  · rfl
  simp only [if_true, Option.bind_some, isFourth, Bool.true_and]
  cases isCoordinate parts.y2
  · rfl
  · rfl

/-- A curve is written with the texts of its coordinates. -/
theorem text_written
    {curve : CubicBezier}
    (parts : Parts)
    (areTexts : curve.points.mapM Wire.numberText =
      .ok (parts.texts.map String.ofList)) :
    curve.text = .ok (String.ofList (parts.written [])) := by
  have isComma : ", ".toList = [',', ' '] := by decide
  have isEnd : ")".toList = [')'] := by decide
  have isJoined : (joinWith ", " (parts.texts.map String.ofList)).toList ++ [')'] =
      parts.inside [] := by
    rw [texts, List.map_cons, toList_joinWith_cons]
    simp only [List.map_cons, List.map_nil, List.flatMap_cons, List.flatMap_nil,
      String.toList_ofList, isComma, inside, List.append_assoc, List.cons_append,
      List.nil_append]
  have isText : "cubic-bezier(" ++ joinWith ", " (parts.texts.map String.ofList) ++
      ")" = String.ofList (parts.written []) := by
    refine String.toList_inj.mp ?_
    calc ("cubic-bezier(" ++ joinWith ", " (parts.texts.map String.ofList) ++
      ")").toList
        = "cubic-bezier(".toList ++
          ((joinWith ", " (parts.texts.map String.ofList)).toList ++ [')']) := by
          rw [String.toList_append, String.toList_append, isEnd, List.append_assoc]
      _ = parts.written [] := congrArg ("cubic-bezier(".toList ++ ·) isJoined
      _ = (String.ofList (parts.written [])).toList := String.toList_ofList.symm
  rw [text, areTexts, ok_bind, isText]
  rfl

end Parts

/-- Four numerals, the coordinates of a curve. -/
structure Coordinates where
  x1 : PlainNumeral
  y1 : PlainNumeral
  x2 : PlainNumeral
  y2 : PlainNumeral

theorem isCoordinateChar_of_mem_unsignedText
    {numeral : PlainNumeral}
    {c : Char}
    (isMember : c ∈ numeral.unsignedText) :
    isCoordinateChar c = true := by
  rcases PlainNumeral.isDecimal_or_point_of_mem_unsignedText isMember with
    decimal | rfl
  · rw [isCoordinateChar, decimal]
    rfl
  · decide

theorem isCoordinate_numeral
    (numeral : PlainNumeral) :
    isCoordinate numeral.text = true := by
  have isSigned := numeral.scanMinus_text []
  rw [List.append_nil, List.append_nil] at isSigned
  rw [isCoordinate, isSigned]
  simpa [numeral.unsignedText_ne_nil] using
    fun c => isCoordinateChar_of_mem_unsignedText

theorem isPart_numeral
    (numeral : PlainNumeral) :
    IsPart numeral.text := by
  have noMark : marks.all (fun mark => !isNumeralChar mark) = true := by
    decide
  refine ⟨numeral.text_ne_nil, fun c isMember =>
    not_isBlank_of_isNumeralChar
      (PlainNumeral.isNumeralChar_of_mem_text isMember), ?_⟩
  intro c isMember isMark
  have isOther := List.all_eq_true.mp noMark c isMark
  rw [PlainNumeral.isNumeralChar_of_mem_text isMember] at isOther
  cases isOther

namespace Coordinates

/-- The texts of the coordinates. -/
def parts (coordinates : Coordinates) : Parts :=
  ⟨coordinates.x1.text, coordinates.y1.text, coordinates.x2.text,
    coordinates.y2.text⟩

/-- The curve that the coordinates make up. -/
def curve (coordinates : Coordinates) : CubicBezier :=
  ⟨.float coordinates.x1.value, .float coordinates.y1.value,
    .float coordinates.x2.value, .float coordinates.y2.value⟩

theorem arePart
    (coordinates : Coordinates) :
    ∀ chars ∈ coordinates.parts.texts, IsPart chars := by
  simp [parts, Parts.texts, isPart_numeral]

theorem areCoordinates
    (coordinates : Coordinates) :
    coordinates.parts.texts.all isCoordinate = true := by
  simp [parts, Parts.texts, isCoordinate_numeral]

/-- A curve with numerals for its coordinates is taken whole. -/
theorem scan?_written
    (coordinates : Coordinates)
    (rest : List Char) :
    scan? (coordinates.parts.written rest) =
      some (coordinates.parts.texts, rest) := by
  rw [Parts.scan?_written coordinates.arePart, if_pos coordinates.areCoordinates]

/-- Written coordinates make up their curve. -/
theorem ofCoordinates?_texts
    (coordinates : Coordinates) :
    ofCoordinates? coordinates.parts.texts = some coordinates.curve := by
  unfold ofCoordinates? Parts.texts
  simp [parts, PlainNumeral.readFloat?_text, curve]

/-- A written curve is read as such. -/
theorem parse_written
    (coordinates : Coordinates) :
    parse (String.ofList (coordinates.parts.written [])) =
      some coordinates.curve := by
  have isFound : find? (coordinates.parts.written []) =
      some ([], coordinates.parts.texts, []) := by
    have isTaken := coordinates.scan?_written []
    obtain ⟨c, rest, isForm⟩ : ∃ c rest, coordinates.parts.written [] = c :: rest :=
      ⟨_, _, rfl⟩
    rw [isForm] at isTaken ⊢
    rw [find?, findFirst, isTaken]
  rw [parse, String.toList_ofList, isFound]
  exact coordinates.ofCoordinates?_texts

end Coordinates

/-- A curve that was read from a text has numbers for its coordinates. -/
theorem exists_of_ofCoordinates?
    {texts : List (List Char)}
    {curve : CubicBezier}
    (isRead : ofCoordinates? texts = some curve) :
    ∃ x1 y1 x2 y2, curve = ⟨.float x1, .float y1, .float x2, .float y2⟩ := by
  unfold ofCoordinates? at isRead
  split at isRead
  · cases isRead
    exact ⟨_, _, _, _, rfl⟩
  · cases isRead

theorem exists_of_parse
    {text : String}
    {curve : CubicBezier}
    (isRead : parse text = some curve) :
    ∃ x1 y1 x2 y2, curve = ⟨.float x1, .float y1, .float x2, .float y2⟩ := by
  unfold parse at isRead
  split at isRead
  · exact exists_of_ofCoordinates? isRead
  · cases isRead

/--
A curve whose coordinates need no exponent is written with
numerals that come back.
-/
theorem exists_text
    {x1 y1 x2 y2 : Float}
    (arePlain : ∀ value ∈ [x1, y1, x2, y2], IsPlainInSix value) :
    ∃ coordinates : Coordinates,
      (CubicBezier.mk (.float x1) (.float y1) (.float x2) (.float y2)).text =
        .ok (String.ofList (coordinates.parts.written [])) ∧
      IsReread x1 coordinates.x1.value ∧ IsReread y1 coordinates.y1.value ∧
      IsReread x2 coordinates.x2.value ∧ IsReread y2 coordinates.y2.value := by
  simp only [List.forall_mem_cons] at arePlain
  obtain ⟨plainX1, plainY1, plainX2, plainY2, _⟩ := arePlain
  obtain ⟨numeralX1, _, textX1, _, rereadX1⟩ := exists_numberText plainX1
  obtain ⟨numeralY1, _, textY1, _, rereadY1⟩ := exists_numberText plainY1
  obtain ⟨numeralX2, _, textX2, _, rereadX2⟩ := exists_numberText plainX2
  obtain ⟨numeralY2, _, textY2, _, rereadY2⟩ := exists_numberText plainY2
  let coordinates : Coordinates := ⟨numeralX1, numeralY1, numeralX2, numeralY2⟩
  refine ⟨coordinates, coordinates.parts.text_written ?_, rereadX1, rereadY1,
    rereadX2, rereadY2⟩
  simp only [points, List.mapM_cons, List.mapM_nil, textX1, textY1, textX2, textY2,
    ok_bind]
  rfl

end DesignTokens.CubicBezier
