import DesignTokens.Text.Blank

namespace DesignTokens.Text

/-!
# Splitting

Cutting a text at a character or at commas outside parentheses, and asking what
a text begins with or holds.
-/

/--
The pieces between the occurrences of a separator; a text without
one is one piece.
-/
def splitOn (separator : Char) : List Char → List (List Char)
  | [] => [[]]
  | c :: rest =>
      if c = separator then [] :: splitOn separator rest
      else
        match splitOn separator rest with
        | [] => [[c]]
        | piece :: pieces => (c :: piece) :: pieces

/-- A text has at least one piece. -/
theorem splitOn_ne_nil (separator : Char) (chars : List Char) :
    splitOn separator chars ≠ [] := by
  cases chars with
  | nil => simp [splitOn]
  | cons c rest =>
      unfold splitOn
      split
      · simp
      · split <;> simp

/-- Splits a text at every occurrence of a separator. -/
def splitText (separator : Char) (text : String) : List String :=
  (splitOn separator text.toList).map String.ofList

/-- Whether a text begins with the given characters. -/
def startsWith (start : List Char) (chars : List Char) : Bool :=
  start.isPrefixOf chars

/-- What follows the given characters, when the text begins with them. -/
def after? : List Char → List Char → Option (List Char)
  | [], chars => some chars
  | _ :: _, [] => none
  | expected :: more, c :: rest => if c = expected then after? more rest else none

/-- What follows a text, when the given characters begin with it. -/
def afterText? (start : String) (chars : List Char) : Option (List Char) :=
  after? start.toList chars

/-- Whether the characters occur somewhere in the text. -/
def contains (wanted : List Char) : List Char → Bool
  | [] => wanted.isEmpty
  | c :: rest => startsWith wanted (c :: rest) || contains wanted rest

/-- Whether one text occurs in another. -/
def containsText (wanted : String) (text : String) : Bool :=
  contains wanted.toList text.toList

/-- The parentheses depth after one more character. -/
def depthAfter (depth : Int) (c : Char) : Int :=
  if c = '(' then depth + 1
  else if c = ')' then depth - 1
  else depth

/--
The parentheses depth after one more character, where a stray
closing one is ignored.
-/
def clampedDepthAfter (depth : Int) (c : Char) : Int :=
  if c = '(' then depth + 1
  else if c = ')' then max 0 (depth - 1)
  else depth

/-- The pieces between commas at depth zero, for a given way to count the depth. -/
def splitAtDepthZero (next : Int → Char → Int) (depth : Int) :
    List Char → List (List Char)
  | [] => [[]]
  | c :: rest =>
      if c = ',' ∧ depth = 0 then [] :: splitAtDepthZero next depth rest
      else
        match splitAtDepthZero next (next depth c) rest with
        | [] => [[c]]
        | piece :: pieces => (c :: piece) :: pieces

/-- Joins texts with a separator. -/
def joinWith (separator : String) (texts : List String) : String :=
  separator.intercalate texts


end DesignTokens.Text
