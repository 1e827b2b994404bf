import DesignTokens.Proofs.Number.PlainNumerals
import DesignTokens.Proofs.Text.Search
import DesignTokens.Proofs.Wire.Members
import DesignTokens.Value.Typography
import Mathlib.Data.List.Forall2

namespace DesignTokens

/-!
# Printed pairs

Named parts are printed as keys with a colon and a value behind it, a text in
double quotes or a plain numeral.  Whatever stands in quotes, the scanner takes
it whole, so the parts that are read are those that were printed; a quoted text
that begins with a number counts as that number.
-/

open DesignTokens.Text
open DesignTokens.Number (PlainNumeral)

/-! Taking a constructor apart. -/

/-- What stands in a constructor is found between its parentheses. -/
theorem constructorBody?_eq_some
    {name : String}
    (isName : ∀ c, name.toList.head? = some c → isBlank c = false)
    (inside : String) :
    constructorBody? (name ++ "(" ++ inside ++ ")") name = some inside := by
  have shape : (name ++ "(" ++ inside ++ ")").toList =
      (name ++ "(").toList ++ (inside.toList ++ [')']) := by
    simp
  have isLast : (inside.toList ++ [')']).getLast? = some ')' := List.getLast?_concat
  have trimmed : Trimmed ((name ++ "(").toList ++ (inside.toList ++ [')'])) := by
    constructor
    · intro c isFirst
      rw [String.toList_append, List.append_assoc, List.head?_append] at isFirst
      cases head : name.toList.head? with
      | none =>
          obtain rfl : '(' = c := by simpa [head] using isFirst
          decide
      | some first =>
          obtain rfl : first = c := by simpa [head] using isFirst
          exact isName first head
    · intro c isEnd
      rw [List.getLast?_append, isLast] at isEnd
      obtain rfl : ')' = c := by simpa using isEnd
      decide
  unfold constructorBody? afterText?
  rw [shape, trimmed.trimChars_eq, after?_append]
  simp only [isLast, if_true, List.dropLast_concat, String.ofList_toList]

/-! Scanning one pair. -/

/-- A text behind a value that is empty or begins with the end of a value. -/
def EndsPair (rest : List Char) : Prop :=
  ∀ c, rest.head? = some c → endsPairValue c = true

theorem endsPair_nil :
    EndsPair [] := by
  rintro c ⟨⟩

theorem endsPair_comma
    (rest : List Char) :
    EndsPair (',' :: rest) := by
  rintro c ⟨⟩
  rfl

/-- A text that begins with no quote is not quoted. -/
theorem scanQuoted?_eq_none
    {chars : List Char}
    (noQuote : chars.head? ≠ some '"') :
    scanQuoted? chars = none := by
  unfold scanQuoted?
  split
  · exact (noQuote rfl).elim
  · rfl

/-- A text in quotes is taken whole. -/
theorem scanPairValue?_quoted
    {content : List Char}
    (isThere : content ≠ [])
    (noQuote : '"' ∉ content)
    (rest : List Char) :
    scanPairValue? (' ' :: '"' :: (content ++ '"' :: rest)) =
      some (content, rest) := by
  have isPassed : ∀ c ∈ content, (c != '"') = true := by
    rintro c isMember
    rw [bne_iff_ne]
    rintro rfl
    exact noQuote isMember
  have isTaken : scanQuoted? ('"' :: (content ++ '"' :: rest)) =
      some (content, rest) := by
    unfold scanQuoted?
    simp only
    rw [List.takeWhile_append_of_pos isPassed,
      List.dropWhile_append_of_pos isPassed]
    simp [isThere]
  have frontKept : skipBlank (' ' :: '"' :: (content ++ '"' :: rest)) =
      '"' :: (content ++ '"' :: rest) := by
    have quoteInk : isBlank '"' = false := by decide
    simp [skipBlank, isBlank_space, quoteInk]
  unfold scanPairValue?
  simp only [frontKept, isTaken]

/-- A text that can be a value without quotes. -/
structure IsPlain (content : List Char) : Prop where
  isThere : content ≠ []
  noBlank : ∀ c ∈ content, isBlank c = false
  noQuote : '"' ∉ content
  noEnd : ∀ c ∈ content, endsPairValue c = false

/-- A value without quotes is taken up to its end. -/
theorem scanPairValue?_plain
    {content rest : List Char}
    (plain : IsPlain content)
    (ends : EndsPair rest) :
    scanPairValue? (' ' :: (content ++ rest)) = some (content, rest) := by
  have isPassed : ∀ c ∈ content, (!endsPairValue c) = true := by
    intro c isMember
    rw [plain.noEnd c isMember, Bool.not_false]
  have isLeft : rest.takeWhile (fun c => !endsPairValue c) = [] ∧
      rest.dropWhile (fun c => !endsPairValue c) = rest := by
    cases rest with
    | nil => exact ⟨rfl, rfl⟩
    | cons c more => simp [ends c rfl]
  have isTrimmed := (trimmed_of_not_blank plain.noBlank).trimChars_eq
  obtain ⟨first, more, rfl⟩ := List.exists_cons_of_ne_nil plain.isThere
  have firstInk : isBlank first = false := plain.noBlank first List.mem_cons_self
  have noQuote : (first :: more ++ rest).head? ≠ some '"' := by
    rintro ⟨⟩
    exact plain.noQuote List.mem_cons_self
  have frontKept :
      skipBlank (' ' :: (first :: more ++ rest)) = first :: more ++ rest := by
    simp [skipBlank, isBlank_space, firstInk]
  unfold scanPairValue?
  simp only [frontKept]
  rw [scanQuoted?_eq_none noQuote, List.takeWhile_append_of_pos isPassed,
    List.dropWhile_append_of_pos isPassed, isLeft.1, isLeft.2, List.append_nil,
    isTrimmed]
  rfl

/-- A word ends at the first character that belongs to none. -/
theorem takeWhile_word
    {word : List Char}
    (wordChars : ∀ c ∈ word, isWord c = true)
    {last : Char}
    (endsWord : isWord last = false)
    (rest : List Char) :
    (word ++ last :: rest).takeWhile isWord = word ∧
      (word ++ last :: rest).dropWhile isWord = last :: rest := by
  rw [List.takeWhile_append_of_pos wordChars,
    List.dropWhile_append_of_pos wordChars]
  simp [endsWord]

theorem not_isWord_colon :
    isWord ':' = false := by
  decide

/-- A key and a colon are taken with the value behind them. -/
theorem scanPair?_key
    {key : List Char}
    (isNamed : key ≠ [])
    (wordChars : ∀ c ∈ key, isWord c = true)
    (rest : List Char) :
    scanPair? (key ++ ':' :: rest) =
      (scanPairValue? rest).map (fun value => ((key, value.1), value.2)) := by
  unfold scanPair?
  simp only [takeWhile_word wordChars not_isWord_colon rest]
  simp [isNamed]

/-! Passing over what is no key. -/

section Keys

variable {α : Type} {scan : List Char → Option (α × List Char)}

/-- Whatever a scanner takes begins with a word and a colon. -/
def NeedsColon (scan : List Char → Option (α × List Char)) : Prop :=
  ∀ chars found, scan chars = some found →
    ∃ rest, chars.dropWhile isWord = ':' :: rest

/--
Whatever a scanner takes begins with a key and a colon, and it leaves an
end of the rest.
-/
def TakesKey (key : List Char) (scan : List Char → Option (α × List Char)) : Prop :=
  ∀ chars found, scan chars = some found →
    ∃ rest, chars = key ++ ':' :: rest ∧ found.2 <:+ rest

theorem TakesKey.needsColon
    {key : List Char}
    (takesKey : TakesKey key scan)
    (wordChars : ∀ c ∈ key, isWord c = true) :
    NeedsColon scan := by
  intro chars found isTaken
  obtain ⟨rest, rfl, _⟩ := takesKey chars found isTaken
  exact ⟨rest, (takeWhile_word wordChars not_isWord_colon rest).2⟩

theorem TakesKey.shortens
    {key : List Char}
    (takesKey : TakesKey key scan) :
    ∀ chars found, scan chars = some found → found.2.length < chars.length := by
  intro chars found isTaken
  obtain ⟨rest, rfl, isLeft⟩ := takesKey chars found isTaken
  have := isLeft.length_le
  rw [List.length_append, List.length_cons]
  omega

theorem needsColon_scanPair? :
    NeedsColon scanPair? := by
  intro chars found isTaken
  unfold scanPair? at isTaken
  simp only at isTaken
  split at isTaken
  · cases isTaken
  · split at isTaken
    · rename_i rest isForm
      exact ⟨rest, isForm⟩
    · cases isTaken

/-- Nothing is found in front of the end of a word when there is no colon. -/
theorem NeedsColon.foundIn_skip
    (needsColon : NeedsColon scan)
    {front : List Char}
    (noColon : ':' ∉ front)
    {last : Char}
    (endsWord : isWord last = false)
    (isLast : last ≠ ':')
    (rest : List Char) :
    foundIn scan (front ++ last :: rest) = foundIn scan rest := by
  have isStop : ∀ chars, ':' ∉ chars →
      ∀ more, (chars ++ last :: rest).dropWhile isWord ≠ ':' :: more := by
    intro chars noColon
    induction chars with
    | nil =>
        intro more isForm
        rw [List.nil_append,
          List.dropWhile_cons_of_neg (by simp [endsWord])] at isForm
        exact isLast (List.cons.inj isForm).1
    | cons c chars inductionHypothesis =>
        intro more isForm
        rw [List.mem_cons, not_or] at noColon
        by_cases word : isWord c = true
        · rw [List.cons_append, List.dropWhile_cons_of_pos word] at isForm
          exact inductionHypothesis noColon.2 more isForm
        · rw [List.cons_append, List.dropWhile_cons_of_neg word] at isForm
          exact noColon.1 (List.cons.inj isForm).1.symm
  have declines : ∀ chars, ':' ∉ chars → scan (chars ++ last :: rest) = none := by
    intro chars noColon
    rw [Option.eq_none_iff_forall_ne_some]
    intro found isTaken
    obtain ⟨more, isForm⟩ := needsColon _ _ isTaken
    exact isStop chars noColon more isForm
  induction front with
  | nil => exact foundIn_cons (declines [] noColon)
  | cons c front inductionHypothesis =>
      have declined : scan (c :: (front ++ last :: rest)) = none :=
        declines (c :: front) noColon
      rw [List.cons_append, foundIn_cons declined]
      exact inductionHypothesis (List.not_mem_of_not_mem_cons noColon)

/-- A scanner for one key finds nothing at a word that does not end in it. -/
theorem TakesKey.foundIn_other
    {key other : List Char}
    (takesKey : TakesKey key scan)
    (wordChars : ∀ c ∈ key, isWord c = true)
    (otherChars : ∀ c ∈ other, isWord c = true)
    (notEnd : ¬ key <:+ other)
    (rest : List Char) :
    foundIn scan (other ++ ':' :: rest) = foundIn scan rest := by
  have declines :
      ∀ place, place <:+ other → scan (place ++ ':' :: rest) = none := by
    intro place isPlace
    rw [Option.eq_none_iff_forall_ne_some]
    intro found isTaken
    obtain ⟨more, isForm, _⟩ := takesKey _ _ isTaken
    have sameWord := congrArg (List.takeWhile isWord) isForm
    rw [(takeWhile_word (fun c isMember => otherChars c (isPlace.subset isMember))
        not_isWord_colon rest).1,
      (takeWhile_word wordChars not_isWord_colon more).1] at sameWord
    exact notEnd (sameWord ▸ isPlace)
  induction other with
  | nil => exact foundIn_cons (declines [] (List.suffix_refl _))
  | cons c other inductionHypothesis =>
      have declined : scan (c :: (other ++ ':' :: rest)) = none :=
        declines (c :: other) (List.suffix_refl _)
      rw [List.cons_append, foundIn_cons declined]
      exact inductionHypothesis
        (fun d isMember => otherChars d (List.mem_cons_of_mem _ isMember))
        (fun isEnd => notEnd (isEnd.trans (List.suffix_cons _ _)))
        (fun place isPlace => declines place (isPlace.trans (List.suffix_cons _ _)))

end Keys

/-- Nothing is found in a value without a colon. -/
theorem NeedsColon.foundIn_value
    {α : Type}
    {scan : List Char → Option (α × List Char)}
    (needsColon : NeedsColon scan)
    {value : List Char}
    (noColon : ':' ∉ value)
    (rest : List Char) :
    foundIn scan (' ' :: (value ++ ',' :: ' ' :: rest)) = foundIn scan rest := by
  have isForm : ' ' :: (value ++ ',' :: ' ' :: rest) =
      (' ' :: (value ++ [','])) ++ ' ' :: rest := by
    simp
  rw [isForm]
  exact needsColon.foundIn_skip (by simp [noColon]) (by decide) (by decide) rest

/-- A comma and a blank stand between two pairs. -/
theorem foundIn_scanPair?_comma
    (rest : List Char) :
    foundIn scanPair? (", ".toList ++ rest) = foundIn scanPair? rest := by
  have isPassed :
      foundIn scanPair? ([','] ++ ' ' :: rest) = foundIn scanPair? rest :=
    needsColon_scanPair?.foundIn_skip (by decide) (by decide) (by decide) rest
  exact isPassed

/-- A key with a value without quotes is found, and the search goes on behind it. -/
theorem foundIn_scanPair?_plain
    {key content rest : List Char}
    (isNamed : key ≠ [])
    (wordChars : ∀ c ∈ key, isWord c = true)
    (plain : IsPlain content)
    (ends : EndsPair rest) :
    foundIn scanPair? (key ++ ':' :: ' ' :: (content ++ rest)) =
      (key, content) :: foundIn scanPair? rest := by
  refine foundIn_of_taken ?_ ?_
  · rw [scanPair?_key isNamed wordChars, scanPairValue?_plain plain ends]
    rfl
  · simp only [List.length_append, List.length_cons]
    omega

/-- No blank stands in a word. -/
theorem not_isBlank_of_isWord
    {c : Char}
    (word : isWord c = true) :
    isBlank c = false := by
  by_cases isNear : c.toNat < 128
  · have noBlank : isWord c = true → isBlank c = false :=
      of_toNat_lt isNear (by decide +kernel)
    exact noBlank word
  · have areApart :
        ∀ range ∈ wordRanges, ∀ blank ∈ blankRanges, apart range blank = true := by
      decide +kernel
    rw [isWord, if_neg isNear] at word
    obtain ⟨range, isRange, inRange⟩ := List.any_eq_true.mp word
    rw [isBlank, inRanges, List.any_eq_false]
    intro blank isBlankRange
    have outside :=
      not_mem_of_apart (areApart range isRange blank isBlankRange)
        (of_decide_eq_true inRange)
    simpa using outside

/-- A text of a class of characters that holds no mark is a value without quotes. -/
theorem isPlain_of_class
    (isMember : Char → Bool)
    (inks : ∀ c, isMember c = true → isBlank c = false)
    (noMark : isMember '"' = false ∧ isMember ',' = false ∧ isMember ')' = false)
    {content : List Char}
    (isThere : content ≠ [])
    (inClass : ∀ c ∈ content, isMember c = true) :
    IsPlain content := by
  have notThere : ∀ other, isMember other = false → other ∉ content := by
    intro other isOther isThere
    cases (inClass other isThere).symm.trans isOther
  refine ⟨isThere, fun c isChar => inks c (inClass c isChar),
    notThere '"' noMark.1, ?_⟩
  intro c isChar
  rw [endsPairValue, Bool.or_eq_false_iff, beq_eq_false_iff_ne, beq_eq_false_iff_ne]
  exact ⟨fun isComma => notThere ',' noMark.2.1 (isComma ▸ isChar),
    fun isClosing => notThere ')' noMark.2.2 (isClosing ▸ isChar)⟩

theorem isPlain_numeral
    (numeral : PlainNumeral) :
    IsPlain numeral.text :=
  isPlain_of_class Number.isNumeralChar
    (fun _ => Number.not_isBlank_of_isNumeralChar) (by decide)
    numeral.text_ne_nil (fun _ => PlainNumeral.isNumeralChar_of_mem_text)

/-! Printing. -/

/-- A text that can be printed in double quotes. -/
structure QuotedText where
  text : String
  isThere : text ≠ ""
  noQuote : '"' ∉ text.toList

/-- A value that can be printed. -/
inductive PrintedValue where
  | quoted (content : QuotedText)
  | number (numeral : PlainNumeral)

/-- A named part that can be printed; its key is a word. -/
structure PrintedPair where
  key : String
  value : PrintedValue
  isNamed : key ≠ ""
  wordChars : ∀ c ∈ key.toList, isWord c = true

/-- A text begins with a plain numeral. -/
def BeginsWithNumber (text : String) : Prop :=
  ∃ numeral : PlainNumeral, numeral.text <+: text.toList

namespace PrintedValue

/-- The value without its quotes. -/
def content : PrintedValue → List Char
  | .quoted content => content.text.toList
  | .number numeral => numeral.text

/-- The value as it is printed. -/
def text : PrintedValue → List Char
  | .quoted content => '"' :: (content.text.toList ++ ['"'])
  | .number numeral => numeral.text

/--
What a printed value is read as: a numeral as its number, a quoted text as
itself, unless it begins with a number.
-/
inductive ReadAs : PrintedValue → PairValue → Prop where
  | number (numeral : PlainNumeral) :
      ReadAs (.number numeral) (.number numeral.value)
  | text (content : QuotedText) :
      ¬ BeginsWithNumber content.text →
      ReadAs (.quoted content) (.text content.text)
  | numbered (content : QuotedText) (numeral : PlainNumeral) :
      numeral.Leads content.text.toList →
      ReadAs (.quoted content) (.number numeral.value)

end PrintedValue

namespace PrintedPair

/-- The pair as it is printed. -/
def text (pair : PrintedPair) : List Char :=
  pair.key.toList ++ ':' :: ' ' :: pair.value.text

/-- Pairs as they are printed, with commas between them. -/
def printed (pairs : List PrintedPair) : String :=
  joinWith ", " (pairs.map (fun pair => String.ofList pair.text))

end PrintedPair

theorem not_beginsWithNumber_iff
    {text : String} :
    ¬ BeginsWithNumber text ↔ Number.scanNumber? text.toList = none := by
  rw [PlainNumeral.scanNumber?_eq_none_iff, BeginsWithNumber, not_exists]

theorem QuotedText.toList_ne_nil
    (content : QuotedText) :
    content.text.toList ≠ [] := by
  simpa using content.isThere

/-- A plain numeral counts as its number. -/
theorem PairValue.ofChars_numeral
    (numeral : PlainNumeral) :
    PairValue.ofChars numeral.text = .number numeral.value := by
  have isTaken := numeral.scanNumber?_text Number.endsNumeral_nil
  rw [List.append_nil] at isTaken
  rw [PairValue.ofChars, isTaken]
  rfl

/-- What is found in quotes or as a numeral is what it is read as. -/
theorem PrintedValue.readAs_ofChars
    (value : PrintedValue) :
    value.ReadAs (PairValue.ofChars value.content) := by
  cases value with
  | number numeral =>
      rw [content, PairValue.ofChars_numeral]
      exact .number numeral
  | quoted content =>
      rw [PrintedValue.content, PairValue.ofChars]
      cases scanned : Number.scanNumber? content.text.toList with
      | none =>
          simp only
          rw [String.ofList_toList]
          exact .text content (not_beginsWithNumber_iff.mpr scanned)
      | some found =>
          obtain ⟨numeral, isFound, leads⟩ :=
            PlainNumeral.leads_of_scanNumber? scanned
          simp only
          rw [← isFound]
          exact .numbered content numeral leads

namespace PrintedPair

/-- A printed pair is taken whole. -/
theorem scanPair?_text
    (pair : PrintedPair)
    {rest : List Char}
    (ends : EndsPair rest) :
    scanPair? (pair.text ++ rest) =
      some ((pair.key.toList, pair.value.content), rest) := by
  have isNamed : pair.key.toList ≠ [] := by
    simpa using pair.isNamed
  have isTaken : scanPairValue? (' ' :: (pair.value.text ++ rest)) =
      some (pair.value.content, rest) := by
    cases pair.value with
    | quoted content =>
        have isTaken :=
          scanPairValue?_quoted content.toList_ne_nil content.noQuote rest
        simpa [PrintedValue.text, PrintedValue.content] using isTaken
    | number numeral => exact scanPairValue?_plain (isPlain_numeral numeral) ends
  rw [text, List.append_assoc, List.cons_append, List.cons_append,
    scanPair?_key isNamed pair.wordChars, isTaken]
  rfl

theorem length_pos
    (pair : PrintedPair) :
    0 < pair.text.length := by
  rw [text, List.length_append, List.length_cons]
  omega

/-- A printed pair is found, and the search goes on behind it. -/
theorem foundIn_text_append
    (pair : PrintedPair)
    {rest : List Char}
    (ends : EndsPair rest) :
    foundIn scanPair? (pair.text ++ rest) =
      (pair.key.toList, pair.value.content) :: foundIn scanPair? rest := by
  have isPair := pair.length_pos
  refine foundIn_of_taken (pair.scanPair?_text ends) ?_
  rw [List.length_append]
  omega

/-- Pairs behind others are printed with commas in front of them. -/
def printedBehind (pairs : List PrintedPair) : List Char :=
  pairs.flatMap (fun pair => ", ".toList ++ pair.text)

theorem endsPair_printedBehind
    (pairs : List PrintedPair) :
    EndsPair (printedBehind pairs) := by
  cases pairs with
  | nil => exact endsPair_nil
  | cons pair rest => exact endsPair_comma _

theorem foundIn_printedBehind
    (pairs : List PrintedPair) :
    foundIn scanPair? (printedBehind pairs) =
      pairs.map (fun pair => (pair.key.toList, pair.value.content)) := by
  induction pairs with
  | nil => exact foundIn_nil
  | cons pair rest inductionHypothesis =>
      have isForm : printedBehind (pair :: rest) =
          ", ".toList ++ (pair.text ++ printedBehind rest) := by
        simp [printedBehind]
      rw [isForm, foundIn_scanPair?_comma,
        pair.foundIn_text_append (endsPair_printedBehind rest), inductionHypothesis]
      rfl

/--
Among printed pairs the scanner finds each key with its value, in their order.
-/
theorem foundIn_printed
    (pairs : List PrintedPair) :
    foundIn scanPair? (printed pairs).toList =
      pairs.map (fun pair => (pair.key.toList, pair.value.content)) := by
  cases pairs with
  | nil => exact foundIn_nil
  | cons pair rest =>
      have isForm : (printed (pair :: rest)).toList =
          pair.text ++ printedBehind rest := by
        rw [printed, List.map_cons, toList_joinWith_cons, printedBehind,
          List.flatMap_map]
        simp
      rw [isForm, pair.foundIn_text_append (endsPair_printedBehind rest),
        foundIn_printedBehind rest]
      rfl

end PrintedPair

/--
The named parts of a text are what its scanner finds, as long as no
key is found twice.
-/
theorem parsePairs_of_foundIn
    {body : String}
    {found : List (List Char × List Char)}
    (isFound : foundIn scanPair? body.toList = found)
    (distinct : (found.map (fun pair => String.ofList pair.1)).Nodup) :
    parsePairs body =
      found.map (fun pair => (String.ofList pair.1, PairValue.ofChars pair.2)) := by
  subst isFound
  have isListed :
      (findAll scanPair? body.toList).map
        (fun pair => (String.ofList pair.found.1, PairValue.ofChars pair.found.2)) =
          (foundIn scanPair? body.toList).map
            (fun pair => (String.ofList pair.1, PairValue.ofChars pair.2)) := by
    rw [foundIn, List.map_map]
    rfl
  rw [parsePairs, isListed, Wire.ofMembers_of_nodup]
  simpa [Function.comp_def] using distinct

theorem PrintedPair.parsePairs_printed
    {pairs : List PrintedPair}
    (distinct : (pairs.map PrintedPair.key).Nodup) :
    parsePairs (PrintedPair.printed pairs) =
      pairs.map (fun pair => (pair.key, PairValue.ofChars pair.value.content)) := by
  rw [parsePairs_of_foundIn (PrintedPair.foundIn_printed pairs)]
  · simp [Function.comp_def]
  · simpa [Function.comp_def] using distinct

/-! Families. -/

/--
A constructor of one quoted family that begins with no number has that family.
-/
theorem Typography.parse_family
    (family : QuotedText)
    (noNumber : ¬ BeginsWithNumber family.text) :
    ∃ style, Typography.parse ("Font(family: \"" ++ family.text ++ "\")") =
      .ok (some style) ∧
      style.fontFamily = [.str family.text] := by
  let pair : PrintedPair :=
    ⟨"family", .quoted family, by decide, List.all_eq_true.mp (by decide)⟩
  have isBody :
      constructorBody? ("Font(family: \"" ++ family.text ++ "\")") "Font" =
        some (PrintedPair.printed [pair]) := by
    have isForm : "Font(family: \"" ++ family.text ++ "\")" =
        "Font" ++ "(" ++ PrintedPair.printed [pair] ++ ")" := by
      rw [← String.toList_inj]
      simp [pair, PrintedPair.printed, PrintedPair.text, PrintedValue.text,
        joinWith]
    rw [isForm]
    exact constructorBody?_eq_some (by rintro c ⟨⟩; decide) _
  have areParts : parsePairs (PrintedPair.printed [pair]) =
      [("family", .text family.text)] := by
    have distinct : ([pair].map PrintedPair.key).Nodup := by simp
    have isTold := PrintedPair.parsePairs_printed distinct
    rw [isTold, List.map_singleton]
    have noNumber := not_beginsWithNumber_iff.mp noNumber
    simp [pair, PrintedValue.content, PairValue.ofChars, noNumber]
  have lengths :
      lengthsOf? [("family", .text family.text)] = some ⟨none, none, none⟩ := by
    simp [lengthsOf?, lengthOf?, Wire.lookup?]
  have weight : weightOf [("family", .text family.text)] = .ok (some 400) := by
    simp [weightOf, Wire.lookup?]
  unfold Typography.parse
  simp only [isBody, areParts, lengths, weight]
  exact ⟨_, rfl, rfl⟩

/--
The named parts of a text are those that were printed, each with its number or
its quoted text; a quoted text that begins with a number counts as that number.
A family that does not is the family of its constructor.
-/
theorem parsePairs_reads_printed
    {pairs : List PrintedPair}
    (distinct : (pairs.map PrintedPair.key).Nodup) :
    List.Forall₂ (fun pair part => part.1 = pair.key ∧ pair.value.ReadAs part.2)
      pairs (parsePairs (PrintedPair.printed pairs)) ∧
      ∀ family : QuotedText, ¬ BeginsWithNumber family.text →
        ∃ style,
          Typography.parse ("Font(family: \"" ++ family.text ++ "\")") =
            .ok (some style) ∧
            style.fontFamily = [.str family.text] := by
  constructor
  · rw [PrintedPair.parsePairs_printed distinct, List.forall₂_map_right_iff,
      List.forall₂_same]
    exact fun pair _ => ⟨rfl, pair.value.readAs_ofChars⟩
  · exact Typography.parse_family

/-- A quoted family and a size are read as they were printed. -/
theorem parsePairs_reads_family_and_size :
    ∃ family size : PrintedPair,
      PrintedPair.printed [family, size] = "family: \"DM Sans\", size: 56" ∧
        ([family, size].map PrintedPair.key).Nodup ∧
        List.Forall₂ (fun pair part => part.1 = pair.key ∧ pair.value.ReadAs part.2)
          [family, size] (parsePairs "family: \"DM Sans\", size: 56") ∧
        ∃ style, Typography.parse "Font(family: \"DM Sans\")" = .ok (some style) ∧
          style.fontFamily = [.str "DM Sans"] := by
  let content : QuotedText := ⟨"DM Sans", by decide, by decide⟩
  let numeral : PlainNumeral :=
    ⟨false, ['5', '6'], [], List.all_eq_true.mp (by decide), List.forall_mem_nil _,
      .inl (List.cons_ne_nil _ _)⟩
  let family : PrintedPair :=
    ⟨"family", .quoted content, by decide, List.all_eq_true.mp (by decide)⟩
  let size : PrintedPair :=
    ⟨"size", .number numeral, by decide, List.all_eq_true.mp (by decide)⟩
  have isPrinted :
      PrintedPair.printed [family, size] = "family: \"DM Sans\", size: 56" := by
    decide
  have distinct : ([family, size].map PrintedPair.key).Nodup := by decide
  have noNumber : ¬ BeginsWithNumber content.text :=
    not_beginsWithNumber_iff.mpr (by decide)
  obtain ⟨areRead, familyRead⟩ := parsePairs_reads_printed distinct
  rw [isPrinted] at areRead
  exact ⟨family, size, isPrinted, distinct, areRead, familyRead content noNumber⟩

/-- A quoted text that begins with a number is not kept. -/
theorem parsePairs_of_numbered_family :
    ∃ value, parsePairs "family: \"8bit Wonder\"" =
      [("family", .number value)] := by
  let content : QuotedText := ⟨"8bit Wonder", by decide, by decide⟩
  let family : PrintedPair :=
    ⟨"family", .quoted content, by decide, List.all_eq_true.mp (by decide)⟩
  have distinct : ([family].map PrintedPair.key).Nodup := by simp
  have isRead := PrintedPair.parsePairs_printed distinct
  have isPrinted : PrintedPair.printed [family] = "family: \"8bit Wonder\"" :=
    by decide
  have isTaken : Number.scanNumber? content.text.toList =
      some (⟨false, ['8'], [], 0⟩, "bit Wonder".toList) := by
    decide
  rw [isPrinted, List.map_singleton, PrintedValue.content, PairValue.ofChars,
    isTaken] at isRead
  exact ⟨_, isRead⟩

end DesignTokens
