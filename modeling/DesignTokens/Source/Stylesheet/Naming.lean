import DesignTokens.Color.Reader
import DesignTokens.Theme.Basic
import DesignTokens.Value.Font
import DesignTokens.Value.Timing

namespace DesignTokens.Stylesheet

/-!
# Names and types of custom properties

The name of a custom property is its path, segments joined with hyphens; a few
names of two words are one segment.  The type is read off the value, and the
name only helps where a number might be a font weight.
-/

open DesignTokens.Text

/-- Names of two words that are one segment of a path. -/
def compounds : List (String × String) :=
  [ ("font-family", "fontFamily"), ("font-size", "fontSize"),
    ("font-weight", "fontWeight"),
    ("line-height", "lineHeight"), ("letter-spacing", "letterSpacing") ]

/-- Drops leading hyphens. -/
def dropHyphens (chars : List Char) : List Char :=
  chars.dropWhile (· == '-')

/--
The name without the start that all names share; an empty start changes nothing.
-/
def dropStart (start : String) (name : List Char) : List Char :=
  match dropHyphens start.toList with
  | [] => name
  | shared => (after? shared name).getD name

/-- What follows a compound that makes up the first segments of a name. -/
def afterCompound? (compound : String) (name : List Char) : Option (List Char) :=
  match afterText? compound name with
  | some [] => some []
  | some ('-' :: rest) => some rest
  | _ => none

/-- The non-empty pieces between hyphens. -/
def pieces (name : List Char) : TokenPath :=
  ((splitOn '-' name).filter (fun piece => !piece.isEmpty)).map String.ofList

/-- The path of a custom property, without the start that all names share. -/
def pathOf (start : String) (name : String) : TokenPath :=
  let rest := dropStart start (dropHyphens name.toList)
  match compounds.findSome? (fun compound =>
      (afterCompound? compound.1 rest).map (fun more => (compound.2, more))) with
  | some (segment, more) => segment :: pieces more
  | none => pieces rest

/--
The custom property that a whole value refers to, as in `var(--name)` or
`var(--name, other)`.
-/
def variableOf? (value : String) : Option String := do
  let rest ← afterText? "var(" value.toList
  let rest ← afterText? "--" (skipBlank rest)
  let name := rest.takeWhile isNameChar
  if name.isEmpty then none
  else
    let result := String.ofList name
    match skipBlank (rest.dropWhile isNameChar) with
    | [')'] => some result
    | ',' :: more => if more.getLast? = some ')' then some result else none
    | _ => none

/-- Parts of a name that hint at a font weight. -/
def weightHints : List String := ["font", "weight"]

/-- Whether a value is written like a font stack. -/
def isFontStack (value : List Char) : Bool :=
  match value with
  | '\'' :: _ => true
  | '"' :: _ => true
  | _ => value.contains ',' && !value.contains '('

/--
Whether a value is written like a font weight; a bare number needs a
hint in the name.
-/
def isFontWeight (name value : String) : Except Fault Bool := do
  let written ← FontWeight.isWeightText value
  return written &&
    (!isNumberText value ||
      weightHints.any (fun hint => containsText hint (lower name)))

/-- The type of a custom property, by its value and its name. -/
def typeOf (name value : String) : Except Fault String := do
  let value := trim value
  if ← Color.isColorText value then return "color"
  if Dimension.hasUnit value.toList then return "dimension"
  if Duration.isExplicit value.toList then return "duration"
  if isFontStack value.toList then return "fontFamily"
  if ← isFontWeight name value then return "fontWeight"
  if isNumberText value then return "number"
  return "string"

/--
The value of a custom property, and the last of the properties that it
refers to on the way.
-/
def follow (values : List (String × String)) : Nat → List String → String → String
  | 0, _, value => value
  | steps + 1, passed, value =>
      match variableOf? value with
      | none => value
      | some name =>
          if passed.contains name then value
          else
            match Wire.lookup? name values with
            | some next => follow values steps (name :: passed) next
            | none => value

/--
The type of a custom property that may refer to others; an open end or a
circle is a text.
-/
def followedType (values : List (String × String)) (name value : String) :
    Except Fault String :=
  let reached := follow values values.length [name] value
  match variableOf? reached with
  | some _ => .ok "string"
  | none => typeOf name reached

/-- The first value of every name. -/
def firstValues (named : List (String × String)) : List (String × String) :=
  named.foldl
    (fun known one => if Wire.has one.1 known then known else known ++ [one]) []

/-- The type of every name, by its first value. -/
def typesByName (named : List (String × String)) :
    Except Fault (List (String × String)) :=
  let values := firstValues named
  values.mapM fun one => do
    let type ← followedType values one.1 one.2
    return (one.1, type)

end DesignTokens.Stylesheet
