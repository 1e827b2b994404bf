import DesignTokens.Text.Ranges

namespace DesignTokens.Text

/-!
# Blank space

The characters that separate words, in every script, and the two operations
built on them: trimming a text and splitting it into words.
-/

/-- Code points of blank characters, as inclusive ranges. -/
def blankRanges : List (Nat × Nat) :=
  [ (0x9, 0xD), (0x1C, 0x20), (0x85, 0x85), (0xA0, 0xA0), (0x1680, 0x1680),
    (0x2000, 0x200A), (0x2028, 0x2029), (0x202F, 0x202F), (0x205F, 0x205F),
    (0x3000, 0x3000) ]

/-- Whether a character is blank. -/
def isBlank (c : Char) : Bool :=
  inRanges blankRanges c

/--
Whether a character is one of the four information separators,
which are blank too.
-/
def isSeparator (c : Char) : Bool :=
  inRanges [(0x1C, 0x1F)] c

/-- Drops leading blanks. -/
def skipBlank (chars : List Char) : List Char :=
  chars.dropWhile isBlank

/-- Drops trailing characters of a class. -/
def trimEndWhile (drop : Char → Bool) (chars : List Char) : List Char :=
  (chars.reverse.dropWhile drop).reverse

/-- Drops leading and trailing blanks. -/
def trimChars (chars : List Char) : List Char :=
  trimEndWhile isBlank (skipBlank chars)

/-- Drops leading and trailing blanks of a text. -/
def trim (text : String) : String :=
  String.ofList (trimChars text.toList)

/--
Adds a word that is being read, last character first, in front of
the words after it.
-/
def consWord (word : List Char) (words : List (List Char)) : List (List Char) :=
  if word.isEmpty then words else word.reverse :: words

/--
The maximal runs of non-blank characters, given the start of the
current run reversed.
-/
def wordsFrom (word : List Char) : List Char → List (List Char)
  | [] => consWord word []
  | c :: rest =>
      if isBlank c then consWord word (wordsFrom [] rest)
      else wordsFrom (c :: word) rest

/-- The maximal runs of non-blank characters. -/
def words (chars : List Char) : List (List Char) :=
  wordsFrom [] chars

end DesignTokens.Text
