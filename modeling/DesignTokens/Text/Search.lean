import DesignTokens.Text.Word

namespace DesignTokens.Text

/-!
# Searching

A scanner looks at the front of a text and either takes something from it or
declines.  Searching tries a scanner at one place after the other; the matches
of one text do not overlap.
-/

/-- What a scanner took, between the text before it and the text after it. -/
structure Match (α : Type) where
  before : List Char
  found : α
  after : List Char
  deriving Repr

/--
The first match of a scanner: the text before it, what was taken, and
the text after it.
-/
def findFirst {α : Type} (scan : List Char → Option (α × List Char)) :
    List Char → Option (List Char × α × List Char)
  | [] => none
  | c :: rest =>
      match scan (c :: rest) with
      | some found => some ([], found.1, found.2)
      | none => (findFirst scan rest).map (fun found => (c :: found.1, found.2))

/--
The matches of a scanner that also sees the character before the place where it
is tried.  `passed` is the text already searched, last character first.
-/
def findAllFrom {α : Type} (scan : Option Char → List Char → Option (α × List Char))
    (passed : List Char) (chars : List Char) : List (Match α) :=
  match chars with
  | [] => []
  | c :: rest =>
      match scan passed.head? (c :: rest) with
      | some (found, after) =>
          if after.length ≤ rest.length then
            let taken := (c :: rest).take ((c :: rest).length - after.length)
            ⟨passed.reverse, found, after⟩ ::
              findAllFrom scan (taken.reverse ++ passed) after
          else findAllFrom scan (c :: passed) rest
      | none => findAllFrom scan (c :: passed) rest
termination_by chars.length
decreasing_by
  all_goals simp only [List.length_cons]
  all_goals omega

/-- The matches of a scanner, from left to right. -/
def findAll
    {α : Type}
    (scan : List Char → Option (α × List Char))
    (chars : List Char) : List (Match α) :=
  findAllFrom (fun _ rest => scan rest) [] chars

/-- Whether a character, if there is one, is no word character. -/
def endsWord : Option Char → Bool
  | some c => !isWord c
  | none => true

/-- The text without any occurrence of a whole word. -/
def dropWholeWord (word : List Char) (previous : Option Char) (chars : List Char) :
    List Char :=
  match chars with
  | [] => []
  | c :: rest =>
      if endsWord previous && word.isPrefixOf (c :: rest) &&
          endsWord ((c :: rest).drop word.length).head? && !word.isEmpty then
        dropWholeWord word word.getLast? ((c :: rest).drop word.length)
      else c :: dropWholeWord word (some c) rest
termination_by chars.length
decreasing_by
  · cases word with
    | nil => simp_all
    | cons first others =>
        simp only [List.length_cons, List.drop_succ_cons, List.length_drop]
        omega
  · simp

/-- Whether a whole word occurs in a text. -/
def hasWholeWord (word : List Char) (previous : Option Char) : List Char → Bool
  | [] => false
  | c :: rest =>
      (endsWord previous && word.isPrefixOf (c :: rest) &&
        endsWord ((c :: rest).drop word.length).head?) ||
        hasWholeWord word (some c) rest

end DesignTokens.Text
