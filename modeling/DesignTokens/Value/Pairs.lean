import DesignTokens.Number.Literal
import DesignTokens.Text.Search
import DesignTokens.Text.Split
import DesignTokens.Wire.Basic

namespace DesignTokens

/-!
# Constructor texts

Composite values may be written as a constructor with named parts, such as
`Name(key: value, key: "value")`.  A value in double quotes may hold anything
but a quote; any other value runs to the next comma or closing parenthesis.  A
value that starts with a number counts as that number.
-/

open DesignTokens.Text

/-- The value of a named part. -/
inductive PairValue where
  | number (value : Float)
  | text (value : String)
  deriving Inhabited

namespace PairValue

/-- The number, if the value is one. -/
def number? : PairValue → Option Float
  | .number value => some value
  | .text _ => none

/-- The document form. -/
def encode : PairValue → Wire
  | .number value => .float value
  | .text value => .str value

/-- A value as written: the number that it starts with, or the text. -/
def ofChars (chars : List Char) : PairValue :=
  match Number.scanNumber? chars with
  | some (literal, _) => .number literal.toFloat
  | none => .text (String.ofList chars)

end PairValue

/-- The text between `Name(` and the final parenthesis. -/
def constructorBody? (raw name : String) : Option String :=
  match afterText? (name ++ "(") (trimChars raw.toList) with
  | some rest =>
      if rest.getLast? = some ')' then some (String.ofList rest.dropLast) else none
  | none => none

/-- Whether a character ends a value that is not in quotes. -/
def endsPairValue (c : Char) : Bool :=
  c == ',' || c == ')'

/-- Takes a value in double quotes; it must not be empty. -/
def scanQuoted? (chars : List Char) : Option (List Char × List Char) :=
  match chars with
  | '"' :: rest =>
      match rest.dropWhile (· != '"') with
      | '"' :: after =>
          let content := rest.takeWhile (· != '"')
          if content.isEmpty then none else some (content, after)
      | _ => none
  | _ => none

/--
Takes a value after its colon.  A quoted value is kept as it is, any other is
trimmed; blanks alone make an empty value.
-/
def scanPairValue? (chars : List Char) : Option (List Char × List Char) :=
  let rest := skipBlank chars
  match scanQuoted? rest with
  | some found => some found
  | none =>
      let content := rest.takeWhile (fun c => !endsPairValue c)
      let after := rest.dropWhile (fun c => !endsPairValue c)
      if !content.isEmpty then some (trimChars content, after)
      else if rest.length < chars.length then some ([], after)
      else none

/-- Takes a key, a colon and a value. -/
def scanPair? (chars : List Char) : Option ((List Char × List Char) × List Char) :=
  let key := chars.takeWhile isWord
  if key.isEmpty then none
  else
    match chars.dropWhile isWord with
    | ':' :: rest =>
        (scanPairValue? rest).map (fun value => ((key, value.1), value.2))
    | _ => none

/--
The named parts of a constructor body; a repeated key keeps its place
and its last value.
-/
def parsePairs (body : String) : List (String × PairValue) :=
  Wire.ofMembers
    ((findAll scanPair? body.toList).map
      (fun pair => (String.ofList pair.found.1, PairValue.ofChars pair.found.2)))

/-- The pieces between commas outside parentheses, each trimmed. -/
def splitLayers (text : String) : List String :=
  (splitAtDepthZero depthAfter 0 text.toList).map
    (fun piece => String.ofList (trimChars piece))

/-- The constructors of one name in a list of constructors. -/
def splitConstructors (raw name : String) : List String :=
  (splitLayers raw).filter
    (fun piece => startsWith (name ++ "(").toList piece.toList)

end DesignTokens
