import DesignTokens.Text.Blank
import DesignTokens.Text.Casing
import DesignTokens.Text.Digit
import DesignTokens.Text.Split

namespace DesignTokens.Lint

/-!
# Naming conventions

The conventions that names of tokens and groups follow.  A name that fits
several of them counts for the first; one line end behind a name does not
matter.
-/

open DesignTokens.Text

/-- A naming convention. -/
inductive Convention where
  | kebab
  | camel
  | pascal
  | snake
  deriving Repr, DecidableEq

namespace Convention

/-- Every convention, in the order in which they are tried. -/
def all : List Convention := [.kebab, .camel, .pascal, .snake]

/-- The name of a convention. -/
def name : Convention → String
  | .kebab => "kebab"
  | .camel => "camel"
  | .pascal => "pascal"
  | .snake => "snake"

/-- Whether a character is a small letter from a to z or a digit. -/
def isLowerOrDigit (c : Char) : Bool :=
  c.isLower || c.isDigit

/-- Whether a name is words of small letters and digits, joined by a separator. -/
def isJoined (separator : Char) (chars : List Char) : Bool :=
  chars.head?.any Char.isLower &&
    (splitOn separator chars).all
      (fun word => !word.isEmpty && word.all isLowerOrDigit)

/-- Whether a name follows a convention. -/
def fits (convention : Convention) (chars : List Char) : Bool :=
  match convention with
  | .kebab => isJoined '-' chars
  | .camel => chars.head?.any Char.isLower && chars.all Char.isAlphanum
  | .pascal => chars.head?.any Char.isUpper && chars.all Char.isAlphanum
  | .snake => isJoined '_' chars

end Convention

/-- A name without one line end behind it. -/
def dropLineEnd (chars : List Char) : List Char :=
  if chars.getLast? = some '\n' then chars.dropLast else chars

/-- The first convention that a name follows. -/
def conventionOf? (name : String) : Option Convention :=
  Convention.all.find? (fun convention => convention.fits (dropLineEnd name.toList))

/-- Hyphens between a small letter and a capital. -/
def separateCapitals : List Char → List Char
  | first :: second :: rest =>
      if first.isLower && second.isUpper then
        first :: '-' :: separateCapitals (second :: rest)
      else first :: separateCapitals (second :: rest)
  | chars => chars

/-- Whether a character separates words. -/
def isSeparator (c : Char) : Bool :=
  c == '_' || isBlank c

/--
One hyphen for every run of separators; `inRun` says whether the run
has begun before.
-/
def joinSeparators (inRun : Bool) : List Char → List Char
  | [] => []
  | c :: rest =>
      if isSeparator c then
        if inRun then joinSeparators true rest else '-' :: joinSeparators true rest
      else c :: joinSeparators false rest

/-- Small words joined with hyphens. -/
def toKebabCase (text : String) : String :=
  String.ofList (lowerChars (joinSeparators false (separateCapitals text.toList)))

/-- Whether a character may not stand in the name of a custom property. -/
def isForbidden (c : Char) : Bool :=
  !(c.isAlphanum || c == '-' || c == '_')

/-- Whether a name begins with a digit. -/
def startsWithDigit (name : String) : Bool :=
  name.toList.head?.any isDigitLike

end DesignTokens.Lint
