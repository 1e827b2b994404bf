import DesignTokens.Text.Casing
import DesignTokens.Text.Split
import DesignTokens.Value.Dimension

namespace DesignTokens

/-!
# Font weights and font stacks

Weights are the hundreds from 100 to 900, by number or by keyword.  A font
stack is a list of family names, written with commas and quotes.
-/

open DesignTokens.Text

namespace FontWeight

/-- The weights that fonts have. -/
def weights : List Nat := [100, 200, 300, 400, 500, 600, 700, 800, 900]

/-- The keywords, each with its weight. -/
def keywords : List (String × Nat) :=
  [ ("thin", 100), ("hairline", 100), ("extralight", 200), ("ultralight", 200),
    ("light", 300),
    ("normal", 400), ("regular", 400), ("medium", 500), ("semibold", 600),
    ("demibold", 600),
    ("bold", 700), ("extrabold", 800), ("ultrabold", 800), ("black", 900),
    ("heavy", 900) ]

/--
The first of the weights with the least distance, distances being
compared by `closer`.
-/
def nearestBy {α : Type} (closer : α → α → Bool) (distance : Nat → α) : Nat :=
  weights.foldl (fun best weight => if closer (distance weight) (distance best) then
    weight else best) 100

/-- The weight nearest to a whole number; a tie goes to the lighter one. -/
def nearestInt (value : Int) : Nat :=
  nearestBy (fun left right => decide (left < right))
    (fun weight => (Int.ofNat weight - value).natAbs)

/-- The weight nearest to a double; a tie goes to the lighter one. -/
def nearestFloat (value : Float) : Nat :=
  nearestBy (fun left right => decide (left < right))
    (fun weight => Float.abs (Number.ofInt (Int.ofNat weight) - value))

/-- The weight nearest to a number. -/
def nearest (value : Wire) : Except Fault Nat :=
  match value with
  | .bool truth => .ok (nearestInt (if truth then 1 else 0))
  | .int whole => .ok (nearestInt whole)
  | .float number => .ok (nearestFloat number)
  | other => .error other.numberFault

/-- The text of a weight in lowercase and without hyphens and spaces. -/
def plainText (raw : String) : String :=
  String.ofList
    ((lowerChars (trimChars raw.toList)).filter (fun c => c != '-' && c != ' '))

/--
The weight of a text, given in lowercase and without hyphens and spaces.  A
number next to a separator is a fault: the separator counts as blank where the
number is recognized, but not where it is read.
-/
def ofPlainText (text : String) : Except Fault (Option Nat) :=
  match bareNumber? text with
  | some number =>
      if text.toList.any isSeparator then
        .error (.badValue ("'" ++ text ++ "' is no number"))
      else .ok (some (nearestFloat number))
  | none => .ok (Wire.lookup? text keywords)

/-- Reads a weight from a number or a text; truth values are no weights. -/
def parse (raw : Wire) : Except Fault (Option Nat) :=
  match raw with
  | .bool _ => .ok none
  | .int whole => .ok (some (nearestInt whole))
  | .float number => .ok (some (nearestFloat number))
  | other => ofPlainText (plainText other.display)

/--
Whether a text is exactly a weight or a keyword for one.  A text of digit-like
characters that make up no numeral is a fault.
-/
def isWeightText (text : String) : Except Fault Bool :=
  let chars := lowerChars (trimChars text.toList)
  if allDigitLike chars then
    match Number.readInt? (String.ofList chars) with
    | some value => .ok (weights.any (fun weight => Int.ofNat weight == value))
    | none => .error (.badValue ("'" ++ text ++ "' is no whole number"))
  else .ok (Wire.has (String.ofList (chars.filter (· != '-'))) keywords)

/-- The written form of a weight; an unknown keyword becomes the normal weight. -/
def text (value : Wire) : Except Fault String :=
  match value with
  | .bool _ => value.wholeText
  | .int _ => value.wholeText
  | .float _ => value.wholeText
  | other =>
      .ok
        (Number.intText
          (Int.ofNat ((Wire.lookup? (lower other.display) keywords).getD 400)))

end FontWeight

namespace FontFamily

/-- Names that stand for a kind of font. -/
def generic : List String :=
  [ "serif", "sans-serif", "monospace", "cursive", "fantasy", "system-ui",
    "ui-sans-serif", "ui-serif", "ui-monospace" ]

/-- Whether a character is a quote. -/
def isQuote (c : Char) : Bool :=
  c == '"' || c == '\''

/-- A family name without blanks and quotes around it. -/
def unquote (chars : List Char) : List Char :=
  trimChars (trimEndWhile isQuote ((trimChars chars).dropWhile isQuote))

/-- The family names of a font stack; empty names are left out. -/
def split (raw : String) : List String :=
  ((splitOn ',' raw.toList).map unquote).filterMap
    (fun name => if name.isEmpty then none else some (String.ofList name))

/-- A family name as written in a font stack: in quotes when it holds a space. -/
def quoteName (name : String) : String :=
  if name.toList.contains ' ' && !generic.contains name then "\"" ++ name ++ "\""
  else name

/-- A family name of a stack that came from a document. -/
def nameText (name : Wire) : Except Fault String :=
  match name with
  | .str text => .ok (quoteName text)
  | other =>
      .error (.wrongKind ("a family name is required, not '" ++ other.kind ++ "'"))

/-- A font stack as written. -/
def format (names : List Wire) : Except Fault String := do
  let names ← names.mapM nameText
  return joinWith ", " names

end FontFamily

end DesignTokens
