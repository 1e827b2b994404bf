import DesignTokens.Proofs.Source.Stylesheet.Composition
import DesignTokens.Proofs.Source.Stylesheet.Names

namespace DesignTokens.Stylesheet

/-!
# Printed style sheets

Blocks of custom properties are written down one block to a line.  What is
extracted from such a text is what was written: the names, values and kinds of
blocks, in the order in which they were written.

Between a name and its value a property writes a colon and a blank, and behind
the value a semicolon.  A value may hold hyphens, colons, quotes and line ends;
only the marks that end a value, braces and the beginning of a comment are kept
out of it.
-/

open DesignTokens.Text

/-- A custom property that can be written down. -/
structure Property where
  /-- The name without the two hyphens. -/
  name : String
  value : String
  isNamed : name ≠ ""
  nameChars : NameChars name.toList
  hasValue : value ≠ ""
  trimmed : Trimmed value.toList
  noMark : ∀ c ∈ value.toList, c ≠ ';' ∧ c ≠ '\x7b' ∧ c ≠ '\x7d'
  noComment : ¬ ['/', '*'] <:+: value.toList

/-- A block of custom properties of one kind. -/
structure Block where
  context : Context
  properties : List Property

/-- The selector in front of the properties of a block. -/
def Context.selector : Context → String
  | .root => ":root"
  | .theme => "@theme"
  | .darkClass => ".dark"
  | .darkAttribute => "[data-theme=\"dark\"]"
  | .darkMedia => ":root"

/-- A heading with a text in braces behind it. -/
def braced (heading : String) (inside : List Char) : List Char :=
  (heading ++ " ").toList ++ '\x7b' :: (inside ++ ['\x7d'])

/-- A text with a blank on either side. -/
def spaced (inside : List Char) : List Char :=
  ' ' :: (inside ++ [' '])

/-- A property as it is written, with a blank in front. -/
def Property.text (property : Property) : List Char :=
  " --".toList ++
    (property.name.toList ++ (": ".toList ++ (property.value.toList ++ [';'])))

namespace Block

/-- The properties of a block as they stand in its braces. -/
def body (properties : List Property) : List Char :=
  properties.flatMap Property.text ++ [' ']

/--
A block as it is written; the root block for a dark scheme stands
in a media query.
-/
def text (block : Block) : List Char :=
  match block.context with
  | .darkMedia =>
      braced "@media (prefers-color-scheme: dark)"
        (spaced (braced block.context.selector (body block.properties)))
  | context => braced context.selector (body block.properties)

/-- What is written in a block: names and values, and the kind of the block. -/
def contents (block : Block) : List (String × String × Context) :=
  block.properties.map
    (fun property => (property.name, property.value, block.context))

end Block

/-- Blocks as they are written, with line ends between them. -/
def printed (blocks : List Block) : String :=
  joinWith "\n" (blocks.map (fun block => String.ofList block.text))

/-- A declaration without its place. -/
def Declaration.content (declaration : Declaration) : String × String × Context :=
  (declaration.name, declaration.value, declaration.context)

theorem map_content_behind
    (text : List Char)
    (found : List Declaration) :
    (behind text found).map Declaration.content =
      found.map Declaration.content := by
  rw [behind, List.map_map]
  rfl

/-! Scanning one property. -/

/-- A written value is taken up to its semicolon. -/
theorem scanValue?_text
    (property : Property)
    (rest : List Char) :
    scanValue? (' ' :: (property.value.toList ++ ';' :: rest)) =
      some (property.value.toList, rest) := by
  have isThere : property.value.toList ≠ [] := by
    simpa using property.hasValue
  -- The value is trimmed, so only the blank in front of it is dropped.
  have frontKept :
      skipBlank (' ' :: (property.value.toList ++ ';' :: rest)) =
        property.value.toList ++ ';' :: rest := by
    obtain ⟨first, others, shape⟩ := List.exists_cons_of_ne_nil isThere
    have notBlank : isBlank first = false :=
      property.trimmed.front first (by simp [shape])
    have blankDropped : isBlank ' ' = true := by decide
    rw [skipBlank, List.dropWhile_cons_of_pos blankDropped, shape, List.cons_append,
      List.dropWhile_cons_of_neg (by simp [notBlank])]
  have isPassed :
      ∀ c ∈ property.value.toList, (c != ';' && c != '\x7b' && c != '\x7d') =
        true := by
    intro c isThere
    simpa [and_assoc] using property.noMark c isThere
  have backKept :
      trimEndWhile isBlank property.value.toList = property.value.toList := by
    rw [trimEndWhile_eq_rdropWhile, List.rdropWhile_eq_self_iff]
    intro _
    simp [property.trimmed.back _ (List.getLast?_eq_some_getLast isThere)]
  unfold scanValue?
  simp only [frontKept]
  rw [List.takeWhile_append_of_pos isPassed, List.dropWhile_append_of_pos isPassed]
  simp [isThere, backKept]

/-- A written property is taken whole when no name stands in front of it. -/
theorem scanDeclaration?_text
    (property : Property)
    (rest : List Char) :
    scanDeclaration? (some ' ')
        ("--".toList ++
          (property.name.toList ++
            (": ".toList ++ (property.value.toList ++ ';' :: rest)))) =
      some ((property.name.toList, property.value.toList), rest) := by
  have isThere : property.name.toList ≠ [] := by
    simpa using property.isNamed
  have noName : isNameChar ' ' = false ∧ isNameChar ':' = false := by decide
  have noBlank : isBlank ':' = false := by decide
  have noLead :
      afterText? "--"
        ("--".toList ++
          (property.name.toList ++
            (": ".toList ++ (property.value.toList ++ ';' :: rest)))) =
              some (property.name.toList ++
                (": ".toList ++ (property.value.toList ++ ';' :: rest))) :=
    rfl
  unfold scanDeclaration?
  rw [noLead]
  simp only [Option.any_some, noName.1, Bool.false_eq_true, if_false,
    Option.bind_eq_bind, Option.bind_some]
  rw [List.takeWhile_append_of_pos property.nameChars,
    List.dropWhile_append_of_pos property.nameChars]
  simp [noName.2, noBlank, isThere, skipBlank, afterText?, after?, scanValue?_text]

theorem findAllFrom_blank
    (passed rest : List Char) :
    findAllFrom scanDeclaration? passed (' ' :: rest) =
      findAllFrom scanDeclaration? (' ' :: passed) rest := by
  have declined : scanDeclaration? passed.head? (' ' :: rest) = none := by
    unfold scanDeclaration?
    split
    · rfl
    · rfl
  rw [findAllFrom, declined]

/-- A search finds the written properties of a block, one after the other. -/
theorem findAllFrom_body
    (properties : List Property)
    (passed : List Char) :
    (findAllFrom scanDeclaration? passed (Block.body properties)).map Match.found =
      properties.map
        (fun property => (property.name.toList, property.value.toList)) := by
  induction properties generalizing passed with
  | nil =>
      change (findAllFrom scanDeclaration? passed [' ']).map Match.found = []
      rw [findAllFrom_blank, findAllFrom]
      rfl
  | cons property rest inductionHypothesis =>
      have shape :
          Block.body (property :: rest) =
            ' ' :: ("--".toList ++ (property.name.toList ++ (": ".toList ++
              (property.value.toList ++ ';' :: Block.body rest)))) := by
        simp [Block.body, Property.text]
      -- The property is taken at its hyphens, and the search goes on in the rest of
      -- the body.
      have taken := scanDeclaration?_text property (Block.body rest)
      rw [shape, findAllFrom_blank]
      generalize isWhole :
        "--".toList ++ (property.name.toList ++ (": ".toList ++
          (property.value.toList ++ ';' :: Block.body rest))) = whole at taken ⊢
      cases whole with
      | nil => cases isWhole
      | cons first others =>
          have shorter : (Block.body rest).length ≤ others.length := by
            have sameLength := congrArg List.length isWhole
            simp only [List.length_append, List.length_cons] at sameLength
            simp at sameLength
            omega
          rw [findAllFrom, List.head?_cons, taken]
          simp only [if_pos shorter, List.map_cons, inductionHypothesis]

/-- The declarations of a written block of properties are those properties. -/
theorem declarations_body
    (context : Context)
    (place : Place)
    (properties : List Property) :
    (declarations context place (Block.body properties)).map Declaration.content =
      properties.map
        (fun property => (property.name, property.value, context)) := by
  have found := congrArg
    (List.map fun pair => (String.ofList pair.1, String.ofList pair.2, context))
    (findAllFrom_body properties [])
  simpa [declarations, Declaration.content, Function.comp_def] using found

/-! Comments and braces. -/

/-- A text that holds no comment, closed or not. -/
structure Uncommented (chars : List Char) : Prop where
  kept : blankComments chars = chars
  closed : commentsClosed chars = true

theorem uncommented_of_no_mark
    {chars : List Char}
    (noMark : ¬ ['/', '*'] <:+: chars) :
    Uncommented chars :=
  ⟨(blankComments_of_no_mark noMark).1, (blankComments_of_no_mark noMark).2⟩

theorem Uncommented.append
    {first second : List Char}
    (firstUncommented : Uncommented first)
    (secondUncommented : Uncommented second)
    (apart : first.getLast? = some '/' → second.head? ≠ some '*') :
    Uncommented (first ++ second) := by
  have isApart : Apart first second := by
    rw [Apart, firstUncommented.kept]
    exact apart
  obtain ⟨taken, takenClosed⟩ :=
    blankComments_append firstUncommented.closed isApart
  constructor
  · rw [taken, firstUncommented.kept, secondUncommented.kept]
  · rw [takenClosed, secondUncommented.closed]

theorem Uncommented.braced
    {heading : String}
    {inside : List Char}
    (noMark : ¬ ['/', '*'] <:+: (heading ++ " ").toList)
    (uncommented : Uncommented inside) :
    Uncommented (braced heading inside) := by
  obtain ⟨taken, takenClosed⟩ := blankComments_block noMark uncommented.closed
  constructor
  · rw [Stylesheet.braced, taken, uncommented.kept]
  · exact takenClosed

theorem Uncommented.spaced
    {inside : List Char}
    (uncommented : Uncommented inside) :
    Uncommented (spaced inside) := by
  have isSpaced : Stylesheet.spaced inside = [' '] ++ (inside ++ [' ']) := rfl
  rw [isSpaced]
  apply Uncommented.append
  · exact uncommented_of_no_mark (by decide)
  · exact uncommented.append (uncommented_of_no_mark (by decide)) (by simp)
  · simp

theorem Uncommented.wellClosed
    {chars : List Char}
    (uncommented : Uncommented chars)
    (balanced : Balanced chars) :
    WellClosed chars := by
  constructor
  · exact uncommented.closed
  · rw [uncommented.kept]
    exact balanced

theorem uncommented_name
    (property : Property) :
    Uncommented property.name.toList := by
  apply uncommented_of_no_mark
  intro isInfix
  have isSlash : '/' ∈ property.name.toList :=
    isInfix.subset (by simp)
  have isName := property.nameChars '/' isSlash
  exact absurd isName (by decide)

/--
Only a slash in front of a star begins a comment, and neither
stands around a value.
-/
theorem uncommented_text
    (property : Property) :
    Uncommented property.text := by
  have valueUncommented : Uncommented (property.value.toList ++ [';']) := by
    apply Uncommented.append
    · exact uncommented_of_no_mark property.noComment
    · exact uncommented_of_no_mark (by decide)
    · simp
  have colonUncommented :
      Uncommented (": ".toList ++ (property.value.toList ++ [';'])) := by
    apply Uncommented.append
    · exact uncommented_of_no_mark (by decide)
    · exact valueUncommented
    · simp
  have nameUncommented :
      Uncommented (property.name.toList ++
        (": ".toList ++ (property.value.toList ++ [';']))) := by
    apply Uncommented.append
    · exact uncommented_name property
    · exact colonUncommented
    · simp
  apply Uncommented.append
  · exact uncommented_of_no_mark (by decide)
  · exact nameUncommented
  · simp

theorem uncommented_body
    (properties : List Property) :
    Uncommented (Block.body properties) := by
  induction properties with
  | nil => exact uncommented_of_no_mark (by decide)
  | cons property rest inductionHypothesis =>
      have shape : Block.body (property :: rest) =
          property.text ++ Block.body rest := by
        simp [Block.body]
      have textShape :
          property.text =
            " --".toList ++
              (property.name.toList ++ (": ".toList ++ property.value.toList)) ++
              [';'] := by
        simp [Property.text]
      have isLast : property.text.getLast? = some ';' := by
        rw [textShape, List.getLast?_concat]
      rw [shape]
      apply Uncommented.append
      · exact uncommented_text property
      · exact inductionHypothesis
      · simp [isLast]

theorem no_brace_name
    (property : Property) :
    '\x7b' ∉ property.name.toList ∧ '\x7d' ∉ property.name.toList := by
  constructor
  · intro isThere
    exact absurd (property.nameChars _ isThere) (by decide)
  · intro isThere
    exact absurd (property.nameChars _ isThere) (by decide)

theorem no_brace_value
    (property : Property) :
    '\x7b' ∉ property.value.toList ∧ '\x7d' ∉ property.value.toList := by
  constructor
  · intro isThere
    exact (property.noMark _ isThere).2.1 rfl
  · intro isThere
    exact (property.noMark _ isThere).2.2 rfl

theorem balanced_body
    (properties : List Property) :
    Balanced (Block.body properties) := by
  apply balanced_of_flat
  · simp [Block.body, Property.text, no_brace_name, no_brace_value]
  · simp [Block.body, Property.text, no_brace_name, no_brace_value]

theorem balanced_braced
    {heading : String}
    {inside : List Char}
    (noOpen : '\x7b' ∉ (heading ++ " ").toList)
    (noClose : '\x7d' ∉ (heading ++ " ").toList)
    (balanced : Balanced inside) :
    Balanced (braced heading inside) := by
  apply Balanced.block
  · exact noOpen
  · exact noClose
  · exact balanced
  · exact balanced_of_flat (by simp) (by simp)

/--
Blanks around a text in braces stand in front of its heading and
behind its brace.
-/
theorem spaced_braced
    (heading : String)
    (inside : List Char) :
    spaced (braced heading inside) =
      (" " ++ heading ++ " ").toList ++ '\x7b' :: (inside ++ '\x7d' :: [' ']) := by
  simp [spaced, braced]

theorem balanced_spaced_braced
    {heading : String}
    {inside : List Char}
    (noOpen : '\x7b' ∉ (heading ++ " ").toList)
    (noClose : '\x7d' ∉ (heading ++ " ").toList)
    (balanced : Balanced inside) :
    Balanced (spaced (braced heading inside)) := by
  rw [spaced_braced]
  apply Balanced.block
  · simpa using noOpen
  · simpa using noClose
  · exact balanced
  · exact balanced_of_flat (by simp) (by simp)

/-! Scanning one block. -/

/--
A selector is read as a heading, and it is that of the kind of block
it is written for.
-/
theorem heading_selector
    (context : Context) :
    headingOf (context.selector ++ " ").toList = context.selector.toList ∧
      isTransparent context.selector.toList = false ∧
      classify Kinds.all (context == .darkMedia) context.selector.toList =
        some context := by
  cases context <;> decide

theorem plain_selector
    (context : Context) :
    ('\x7b' ∉ (context.selector ++ " ").toList ∧
      '\x7d' ∉ (context.selector ++ " ").toList) ∧
      ¬ ['/', '*'] <:+: (context.selector ++ " ").toList := by
  cases context <;> decide

/-- A block with no other one behind it is scanned for its properties. -/
theorem map_content_scan_braced
    (context : Context)
    (place : Place)
    (properties : List Property)
    {after : List Char}
    (nothingBehind : '\x7b' ∉ after) :
    (scan Kinds.all (context == .darkMedia) place
        (braced context.selector (Block.body properties) ++ after)).map
          Declaration.content =
      properties.map
        (fun property => (property.name, property.value, context)) := by
  have shape :
      braced context.selector (Block.body properties) ++ after =
        (context.selector ++ " ").toList ++
          '\x7b' :: (Block.body properties ++ '\x7d' :: after) := by
    simp [braced]
  obtain ⟨isHeading, isOutside, isKind⟩ := heading_selector context
  rw [shape, scan_block (plain_selector context).1.1 (balanced_body properties),
    scan_of_uncut (cut?_of_flat nothingBehind), List.append_nil, isHeading,
    scanBlock, isOutside, isKind]
  exact declarations_body context _ properties

/--
The media query for a dark scheme is scanned as if its text stood outside,
for dark blocks.
-/
theorem heading_media :
    headingOf ("@media (prefers-color-scheme: dark)" ++ " ").toList =
        "@media (prefers-color-scheme: dark)".toList ∧
      isTransparent "@media (prefers-color-scheme: dark)".toList = true ∧
      isDarkMedia "@media (prefers-color-scheme: dark)".toList = true := by
  decide

theorem plain_media :
    ('\x7b' ∉ ("@media (prefers-color-scheme: dark)" ++ " ").toList ∧
      '\x7d' ∉ ("@media (prefers-color-scheme: dark)" ++ " ").toList) ∧
      ¬ ['/', '*'] <:+: ("@media (prefers-color-scheme: dark)" ++ " ").toList := by
  decide

namespace Block

theorem text_of_media
    {block : Block}
    (isMedia : block.context = .darkMedia) :
    block.text =
      braced "@media (prefers-color-scheme: dark)"
        (spaced (braced block.context.selector (body block.properties))) := by
  simp [text, isMedia]

theorem text_of_not_media
    {block : Block}
    (isNoMedia : block.context ≠ .darkMedia) :
    block.text = braced block.context.selector (body block.properties) := by
  cases context : block.context with
  | darkMedia => exact (isNoMedia context).elim
  | _ => simp [text, context]

theorem uncommented_text
    (block : Block) :
    Uncommented block.text := by
  have selected :
      Uncommented (braced block.context.selector (body block.properties)) :=
    (uncommented_body block.properties).braced (plain_selector block.context).2
  by_cases isMedia : block.context = .darkMedia
  · rw [text_of_media isMedia]
    exact selected.spaced.braced plain_media.2
  · rw [text_of_not_media isMedia]
    exact selected

theorem balanced_text
    (block : Block) :
    Balanced block.text := by
  obtain ⟨noOpen, noClose⟩ := (plain_selector block.context).1
  have balanced := balanced_body block.properties
  by_cases isMedia : block.context = .darkMedia
  · obtain ⟨mediaNoOpen, mediaNoClose⟩ := plain_media.1
    rw [text_of_media isMedia]
    apply balanced_braced mediaNoOpen mediaNoClose
    exact balanced_spaced_braced noOpen noClose balanced
  · rw [text_of_not_media isMedia]
    exact balanced_braced noOpen noClose balanced

theorem endsBehindBlock_text
    (block : Block) :
    EndsBehindBlock block.text := by
  have isLast (heading : String) (inside : List Char) :
      lastMark? (braced heading inside) = some '\x7d' := by
    have shape : braced heading inside =
        (heading ++ " ").toList ++ '\x7b' :: inside ++ ['\x7d'] := by
      simp [braced]
    rw [shape, lastMark?, List.reverse_concat]
    exact List.find?_cons_of_pos (by decide)
  right
  by_cases isMedia : block.context = .darkMedia
  · rw [text_of_media isMedia, isLast]
  · rw [text_of_not_media isMedia, isLast]

/-- From a written block the properties are extracted that were written in it. -/
theorem map_content_extract
    (block : Block) :
    (extract Kinds.all (String.ofList block.text)).map Declaration.content =
      block.contents := by
  rw [extract, String.toList_ofList, (uncommented_text block).kept]
  by_cases isMedia : block.context = .darkMedia
  · obtain ⟨isHeading, isTransparent, isDark⟩ := heading_media
    obtain ⟨selectorNoOpen, selectorNoClose⟩ := (plain_selector block.context).1
    have balanced := balanced_spaced_braced selectorNoOpen selectorNoClose
      (balanced_body block.properties)
    have inBlanks (selected : List Char) :
        spaced selected = [' '] ++ (selected ++ [' ']) := rfl
    have noOpenBehind : '\x7b' ∉ [' '] := by decide
    have blank : ∀ c ∈ [' '], isBlank c = true := List.forall_mem_singleton.mpr rfl
    have nothingBehind : cut? [] = none := rfl
    have found (place : Place) :=
      map_content_scan_braced block.context place block.properties noOpenBehind
    rw [beq_iff_eq.mpr isMedia] at found
    rw [text_of_media isMedia, braced, scan_block plain_media.1.1 balanced,
      scan_of_uncut nothingBehind, List.append_nil, isHeading, scanBlock,
      if_pos isTransparent, isDark, inBlanks, scan_blank_append noOpenBehind blank,
      Bool.false_or, found]
    rfl
  · have found :=
      map_content_scan_braced block.context Place.start block.properties
        List.not_mem_nil
    rw [beq_eq_false_iff_ne.mpr isMedia, List.append_nil] at found
    rw [text_of_not_media isMedia, found]
    rfl

end Block

theorem printed_cons
    (block : Block)
    {rest : List Block}
    (isMore : rest ≠ []) :
    printed (block :: rest) =
      String.ofList block.text ++ ("\n" ++ printed rest) := by
  obtain ⟨second, others, rfl⟩ := List.exists_cons_of_ne_nil isMore
  simp [printed, joinWith, String.append_assoc]

/-- What is extracted from texts put together is extracted from each of them. -/
theorem map_content_extract_append
    {first : String}
    (closed : WellClosed first.toList)
    (ends : EndsBehindBlock (blankComments first.toList))
    (second : String) :
    (extract Kinds.all (first ++ second)).map Declaration.content =
      (extract Kinds.all first).map Declaration.content ++
        (extract Kinds.all second).map Declaration.content := by
  rw [extract_append Kinds.all closed ends, List.map_append, map_content_behind]

/--
What is extracted from written blocks are the names, the values and the kinds of
block that were written, in the order in which they were written.
-/
theorem extract_printed
    (blocks : List Block) :
    (extract Kinds.all (printed blocks)).map Declaration.content =
      blocks.flatMap Block.contents := by
  induction blocks with
  | nil =>
      have nothing : extract Kinds.all (printed []) = [] := by decide +kernel
      rw [nothing]
      rfl
  | cons block rest inductionHypothesis =>
      have closed : WellClosed (String.ofList block.text).toList := by
        rw [String.toList_ofList]
        exact block.uncommented_text.wellClosed block.balanced_text
      have ends :
          EndsBehindBlock (blankComments (String.ofList block.text).toList) := by
        rw [String.toList_ofList, block.uncommented_text.kept]
        exact block.endsBehindBlock_text
      have lineEndClosed : WellClosed "\n".toList :=
        ⟨by decide +kernel, by decide +kernel⟩
      have lineEndEnds : EndsBehindBlock (blankComments "\n".toList) :=
        by decide +kernel
      have nothing : extract Kinds.all "\n" = [] := by decide +kernel
      by_cases isLast : rest = []
      · subst isLast
        have alone : printed [block] = String.ofList block.text := by
          simp [printed, joinWith]
        rw [alone, Block.map_content_extract, List.flatMap_cons, List.flatMap_nil,
          List.append_nil]
      · rw [printed_cons block isLast, map_content_extract_append closed ends,
          map_content_extract_append lineEndClosed lineEndEnds, nothing,
          Block.map_content_extract, inductionHypothesis]
        rfl

/-- A property whose value looks like one itself and holds quotes. -/
def quoted : Property where
  name := "a-1"
  value := "x --y: 'q'"
  isNamed := by decide
  nameChars := List.all_eq_true.mp (by decide)
  hasValue := by decide
  trimmed := ⟨by rintro c ⟨⟩; decide, by rintro c ⟨⟩; decide⟩
  noMark := by simp
  noComment inside := absurd (inside.subset List.mem_cons_self) (by decide)

/--
A property whose value looks like a property is extracted as one, in a media
query too.
-/
theorem extract_printed_quoted :
    printed [⟨.darkMedia, [quoted]⟩, ⟨.theme, [quoted, quoted]⟩] =
        "@media (prefers-color-scheme: dark) \x7b " ++
          ":root \x7b --a-1: x --y: 'q'; \x7d \x7d\n" ++
          "@theme \x7b --a-1: x --y: 'q'; --a-1: x --y: 'q'; \x7d" ∧
      (extract Kinds.all
        (printed [⟨.darkMedia, [quoted]⟩, ⟨.theme, [quoted, quoted]⟩])).map
          Declaration.content =
        [ ("a-1", "x --y: 'q'", .darkMedia),
          ("a-1", "x --y: 'q'", .theme),
          ("a-1", "x --y: 'q'", .theme) ] :=
  ⟨by decide +kernel, extract_printed _⟩

end DesignTokens.Stylesheet
