import DesignTokens.Text.Casing
import DesignTokens.Text.Search
import DesignTokens.Text.Split

namespace DesignTokens.Stylesheet

/-!
# Extraction

Custom properties are taken from the blocks that carry a theme: the root, theme
blocks, and the dark variants of the root.  At-rules other than theme blocks are
transparent, and a media query for a dark scheme makes the roots inside it dark.
Whatever else a style sheet holds is passed over.

A region of text is cut at its first block into the text before the block, the
text inside it, and the text after it; all of them are shorter than the region,
so extraction always ends.
-/

open DesignTokens.Text

/-- The text of a comment and the text after it, if the comment is closed. -/
def closeComment? : List Char → Option (List Char × List Char)
  | [] => none
  | '*' :: '/' :: rest => some ([], rest)
  | c :: rest => (closeComment? rest).map (fun found => (c :: found.1, found.2))

/-- What follows a closed comment is shorter than the text that it closes in. -/
theorem length_closeComment? {chars : List Char} {found : List Char × List Char}
    (isClosed : closeComment? chars = some found) :
    found.2.length < chars.length := by
  fun_induction closeComment? chars generalizing found with
  | case1 => simp at isClosed
  | case2 rest =>
      cases isClosed
      simp only [List.length_cons]
      omega
  | case3 c rest _ inductionHypothesis =>
      obtain ⟨inner, isInner, rfl⟩ := Option.map_eq_some_iff.mp isClosed
      have shorter := inductionHypothesis isInner
      simp only [List.length_cons]
      omega

/-- The line ends of a text. -/
def lineEnds (chars : List Char) : List Char :=
  chars.filter (· == '\n')

/--
The text without comments; their line ends stay, so that every line
keeps its number.
-/
def blankComments (chars : List Char) : List Char :=
  match chars with
  | [] => []
  | '/' :: '*' :: rest =>
      match _isClosed : closeComment? rest with
      | some found => lineEnds found.1 ++ blankComments found.2
      | none => chars
  | c :: rest => c :: blankComments rest
termination_by chars.length
decreasing_by
  · have shorter := length_closeComment? _isClosed
    simp only [List.length_cons]
    omega
  · simp

/--
A place in a text: how many characters and how many line ends stand before it.
-/
structure Place where
  offset : Nat
  lineEnds : Nat
  deriving Repr, DecidableEq

namespace Place

/-- The beginning of a text. -/
def start : Place :=
  ⟨0, 0⟩

/-- The place behind some more characters. -/
def after (place : Place) (chars : List Char) : Place :=
  ⟨place.offset + chars.length, place.lineEnds + chars.count '\n'⟩

/-- The number of the line, counted from one. -/
def line (place : Place) : Nat :=
  place.lineEnds + 1

end Place

/-- A region cut at its first block. -/
structure Cut where
  before : List Char
  inside : List Char
  after : List Char

/--
The text up to the brace that closes a block, and the text behind that brace.
The depth counts the blocks opened on the way; an unclosed block reaches to the
end.
-/
def untilClosed (depth : Nat) : List Char → List Char × List Char
  | [] => ([], [])
  | c :: rest =>
      if c = '\x7b' then
        let found := untilClosed (depth + 1) rest
        (c :: found.1, found.2)
      else if c = '\x7d' then
        match depth with
        | 0 => ([], rest)
        | depth + 1 =>
            let found := untilClosed depth rest
            (c :: found.1, found.2)
      else
        let found := untilClosed depth rest
        (c :: found.1, found.2)

/-- Closing a block adds no text. -/
theorem length_untilClosed (depth : Nat) (chars : List Char) :
    (untilClosed depth chars).1.length + (untilClosed depth chars).2.length ≤
      chars.length := by
  induction chars generalizing depth with
  | nil => simp [untilClosed]
  | cons c rest inductionHypothesis =>
      have deeper := inductionHypothesis (depth + 1)
      unfold untilClosed
      split
      · simp only [List.length_cons]
        omega
      · split
        · cases depth with
          | zero => simp
          | succ outer =>
              have further := inductionHypothesis outer
              simp only [List.length_cons]
              omega
        · have level := inductionHypothesis depth
          simp only [List.length_cons]
          omega

/-- Cuts a region at its first block, if it has one. -/
def cut? (region : List Char) : Option Cut :=
  match region.dropWhile (· != '\x7b') with
  | _ :: rest =>
      some ⟨region.takeWhile (· != '\x7b'), (untilClosed 0 rest).1,
        (untilClosed 0 rest).2⟩
  | [] => none

/-- The pieces of a cut region are shorter than the region. -/
theorem length_cut?
    {region : List Char}
    {cut : Cut}
    (isCut : cut? region = some cut) :
    cut.inside.length < region.length ∧ cut.after.length < region.length := by
  unfold cut? at isCut
  split at isCut
  · rename_i brace rest remaining
    cases isCut
    have whole :=
      congrArg List.length
        (List.takeWhile_append_dropWhile (p := (· != '\x7b')) (l := region))
    have parts := length_untilClosed 0 rest
    simp only [remaining, List.length_append, List.length_cons] at whole
    constructor
    · change (untilClosed 0 rest).1.length < region.length
      omega
    · change (untilClosed 0 rest).2.length < region.length
      omega
  · simp at isCut

/-- What stands in front of a block: the text since the last block or statement. -/
def headingOf (before : List Char) : List Char :=
  trimChars (before.reverse.takeWhile (fun c => c != ';' && c != '\x7d')).reverse

/-- The kinds of blocks that declarations are taken from. -/
inductive Context where
  | root
  | theme
  | darkClass
  | darkAttribute
  | darkMedia
  deriving Repr, DecidableEq

namespace Context

/-- The name of a kind of block. -/
def label : Context → String
  | .root => ":root"
  | .theme => "@theme"
  | .darkClass => ".dark"
  | .darkAttribute => "[data-theme=\"dark\"]"
  | .darkMedia => "@media (prefers-color-scheme: dark)"

/-- Whether the declarations belong to the dark scheme. -/
def isDark : Context → Bool
  | .root => false
  | .theme => false
  | .darkClass => true
  | .darkAttribute => true
  | .darkMedia => true

end Context

/-- The kinds of blocks that are asked for. -/
structure Kinds where
  themeBlocks : Bool
  rootBlocks : Bool
  darkBlocks : Bool
  deriving Repr, DecidableEq

/-- Every kind of block. -/
def Kinds.all : Kinds :=
  ⟨true, true, true⟩

/-- Takes a class that stands for the dark scheme. -/
def scanDarkClass? (chars : List Char) : Option (Unit × List Char) := do
  let rest ← afterText? ".dark" chars
  match rest with
  | c :: _ => if isNameChar c then none else some ((), rest)
  | [] => some ((), [])

/-- Drops one quote, if there is one. -/
def skipQuote (chars : List Char) : List Char :=
  match chars with
  | '"' :: rest => rest
  | '\'' :: rest => rest
  | _ => chars

/-- Takes an attribute that asks for the dark scheme. -/
def scanDarkAttribute? (chars : List Char) : Option (Unit × List Char) := do
  let rest ← afterText? "[data-theme=" chars
  let rest ← afterText? "dark" (skipQuote rest)
  let rest ← afterText? "]" (skipQuote rest)
  return ((), rest)

/-- Takes a condition that holds in the dark scheme, case aside. -/
def scanDarkCondition? (chars : List Char) : Option (Unit × List Char) := do
  let rest ← scanWord? "prefers-color-scheme".toList chars
  let rest ← afterText? ":" (skipBlank rest)
  let rest ← scanWord? "dark".toList (skipBlank rest)
  return ((), rest)

/-- Whether a scanner takes something somewhere in a text. -/
def occurs (scan : List Char → Option (Unit × List Char)) (chars : List Char) :
    Bool :=
  (findFirst scan chars).isSome

/-- Whether the blocks inside a block are scanned as if they stood outside. -/
def isTransparent (heading : List Char) : Bool :=
  startsWith ['@'] heading && !startsWith "@theme".toList heading

/-- Whether a heading is a media query for the dark scheme. -/
def isDarkMedia (heading : List Char) : Bool :=
  startsWith "@media".toList (lowerChars heading) &&
    occurs scanDarkCondition? heading

/-- The kind of a block, when declarations are taken from it. -/
def classify (kinds : Kinds) (inDarkMedia : Bool) (heading : List Char) :
    Option Context :=
  let when (wanted : Bool) (context : Context) : Option Context :=
    if wanted then some context else none
  if startsWith "@theme".toList heading then when kinds.themeBlocks .theme
  else if occurs scanDarkClass? heading then when kinds.darkBlocks .darkClass
  else if occurs scanDarkAttribute? heading then
    when kinds.darkBlocks .darkAttribute
  else if contains ":root".toList heading then
    if inDarkMedia then when kinds.darkBlocks .darkMedia
    else when kinds.rootBlocks .root
  else none

/-- A custom property. -/
structure Declaration where
  /-- The name without the two hyphens. -/
  name : String
  value : String
  /-- Where the name begins in the text without comments. -/
  place : Place
  context : Context

/-- Takes the value of a declaration and its end; braces end no value. -/
def scanValue? (chars : List Char) : Option (List Char × List Char) :=
  let rest := skipBlank chars
  let run := rest.takeWhile (fun c => c != ';' && c != '\x7b' && c != '\x7d')
  if run.isEmpty && rest.length == chars.length then none
  else
    match rest.dropWhile (fun c => c != ';' && c != '\x7b' && c != '\x7d') with
    | [] => some (trimEndWhile isBlank run, [])
    | c :: after => if c = ';' then some (trimEndWhile isBlank run, after) else none

/-- Takes a declaration that does not begin inside a name. -/
def scanDeclaration? (previous : Option Char) (chars : List Char) :
    Option ((List Char × List Char) × List Char) := do
  if previous.any isNameChar then none
  else
    let rest ← afterText? "--" chars
    let name := rest.takeWhile isNameChar
    if name.isEmpty then none
    else
      let rest ← afterText? ":" (skipBlank (rest.dropWhile isNameChar))
      let (value, after) ← scanValue? rest
      return ((name, value), after)

/-- The declarations of a block. -/
def declarations (context : Context) (place : Place) (body : List Char) :
    List Declaration :=
  (findAllFrom scanDeclaration? [] body).map fun found =>
    { name := String.ofList found.found.1
      value := String.ofList found.found.2
      place := place.after (found.before ++ ['-', '-'])
      context := context }

/--
The declarations of a region that begins at a place, inside or outside a
dark media query.
-/
def scan (kinds : Kinds) (inDarkMedia : Bool) (place : Place) (region : List Char) :
    List Declaration :=
  match _isCut : cut? region with
  | none => []
  | some cut =>
      let heading := headingOf cut.before
      let inner := place.after (cut.before ++ ['\x7b'])
      let found :=
        if isTransparent heading then
          scan kinds (inDarkMedia || isDarkMedia heading) inner cut.inside
        else
          match classify kinds inDarkMedia heading with
          | some context => declarations context inner cut.inside
          | none => []
      found ++ scan kinds inDarkMedia (inner.after (cut.inside ++ ['\x7d']))
        cut.after
termination_by region.length
decreasing_by
  · exact (length_cut? _isCut).1
  · exact (length_cut? _isCut).2

/-- The declarations of a style sheet, in document order. -/
def extract (kinds : Kinds) (css : String) : List Declaration :=
  scan kinds false Place.start (blankComments css.toList)

end DesignTokens.Stylesheet
