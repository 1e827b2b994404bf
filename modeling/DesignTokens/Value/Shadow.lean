import DesignTokens.Color.Formats
import DesignTokens.Value.Dimension
import DesignTokens.Value.Pairs
import DesignTokens.Value.Typography

namespace DesignTokens

/-!
# Shadows

One shadow layer has two offsets, a blur radius, a color, and possibly a spread
and an inset mark.  Layers are written as `Effect(…)` constructors or in the
order `[inset] x y [blur [spread]] [color]`.
-/

open DesignTokens.Text

/-- One shadow layer. -/
structure Shadow where
  offsetX : Dimension
  offsetY : Dimension
  blur : Dimension
  color : Color
  spread? : Option Dimension
  inset : Wire
  deriving Inhabited

namespace Shadow

/-- The document form; spread and inset mark are left out when there are none. -/
def encode (shadow : Shadow) : Wire :=
  .object
    ([ ("offsetX", shadow.offsetX.encode),
       ("offsetY", shadow.offsetY.encode),
       ("blur", shadow.blur.encode),
       ("color", shadow.color.encode) ] ++
      (match shadow.spread? with
       | some spread => [("spread", spread.encode)]
       | none => []) ++
      (if shadow.inset.isTruthy then [("inset", .bool true)] else []))

/-- Reads the document form. -/
def decode (data : Wire) : Except Fault Shadow := do
  let spreadData ← data.getD "spread" .null
  let offsetXData ← data.require "offsetX"
  let offsetX ← Dimension.decode offsetXData
  let offsetYData ← data.require "offsetY"
  let offsetY ← Dimension.decode offsetYData
  let blurData ← data.require "blur"
  let blur ← Dimension.decode blurData
  let colorData ← data.require "color"
  let color ← Color.decode colorData
  let spread ← Typography.decodeOptionalLength spreadData
  let inset ← data.getD "inset" (.bool false)
  return ⟨offsetX, offsetY, blur, color, spread, inset⟩

/-- The written form of one layer. -/
def text (shadow : Shadow) : Except Fault String := do
  let offsetX ← shadow.offsetX.text
  let offsetY ← shadow.offsetY.text
  let blur ← shadow.blur.text
  let spread ←
    match shadow.spread? with
    | some spread => do
        let text ← spread.text
        pure [text]
    | none => pure []
  let color ← shadow.color.toRgb
  return joinWith " "
    ((if shadow.inset.isTruthy then ["inset"] else []) ++
      [offsetX, offsetY, blur] ++ spread ++
      [color])

/-- The color of an effect that names none: black, barely visible. -/
def defaultEffectColor : Color :=
  Color.ofFloats 0.0 0.0 0.0 0.1

/-- Takes `color:` and a hexadecimal color. -/
def scanEffectColor? (chars : List Char) : Option (List Char × List Char) := do
  let rest ← afterText? "color:" chars
  match skipBlank rest with
  | '#' :: rest =>
      let digits := rest.takeWhile Color.isHexDigit
      if digits.isEmpty then none
      else some ('#' :: digits, rest.dropWhile Color.isHexDigit)
  | _ => none

/-- Takes `offset:` and a text in parentheses. -/
def scanOffset? (chars : List Char) : Option (List Char × List Char) := do
  let rest ← afterText? "offset:" chars
  match skipBlank rest with
  | '(' :: rest =>
      let content := rest.takeWhile (· != ')')
      match rest.dropWhile (· != ')') with
      | ')' :: after => if content.isEmpty then none else some (content, after)
      | _ => none
  | _ => none

/-- The color of an effect. -/
def effectColor (body : List Char) : Color :=
  match findFirst scanEffectColor? body with
  | some (_, digits, _) =>
      (Color.parseHex (String.ofList digits)).getD defaultEffectColor
  | none => defaultEffectColor

/-- One written offset; a missing one is zero. -/
def offsetOf? (piece : Option (List Char)) : Option Float :=
  match piece with
  | none => some 0.0
  | some chars =>
      if (trimChars chars).isEmpty then some 0.0
      else Number.readFloat? (String.ofList (trimChars chars))

/-- Both offsets of an effect; `none` when one is no numeral. -/
def effectOffsets? (body : List Char) : Option (Float × Float) :=
  match findFirst scanOffset? body with
  | some (_, content, _) => do
      let pieces := splitOn ',' content
      let x ← offsetOf? pieces[0]?
      let y ← offsetOf? pieces[1]?
      return (x, y)
  | none => some (0.0, 0.0)

/-- Reads an `Effect(…)` constructor; inner shadows are inset. -/
def parseEffect (raw : String) : Option Shadow := do
  let body ← constructorBody? raw "Effect"
  let pairs := parsePairs body
  let (offsetX, offsetY) ← effectOffsets? body.toList
  let blur ← Typography.lengthOf? "radius" pairs
  let spread ← Typography.lengthOf? "spread" pairs
  let inset :=
    match Wire.lookup? "type" pairs with
    | some (.text name) => name == "INNER_SHADOW"
    | _ => false
  return {
    offsetX := Dimension.px offsetX
    offsetY := Dimension.px offsetY
    blur := Dimension.px (blur.getD 0.0)
    color := effectColor body.toList
    spread? := spread.map Dimension.px
    inset := .bool inset }

/-- Takes a color function: its name, and its arguments between parentheses. -/
def scanColorFunction? (ignoreCase emptyArguments : Bool) (chars : List Char) :
    Option (List Char × List Char) :=
  let names := ["rgba(", "rgb(", "hsla(", "hsl(", "oklch("]
  let taken :=
    names.findSome? fun name =>
      if ignoreCase then scanWord? name.toList chars else afterText? name chars
  match taken with
  | none => none
  | some rest =>
      match rest.dropWhile (· != ')') with
      | ')' :: after =>
          if (rest.takeWhile (· != ')')).isEmpty && !emptyArguments then none
          else some (chars.take (chars.length - after.length), after)
      | _ => none

/--
Takes a hexadecimal color of three to eight digits that ends at
the end of a word.
-/
def scanHexColor? (chars : List Char) : Option (List Char × List Char) :=
  match chars with
  | '#' :: rest =>
      let digits := rest.takeWhile Color.isHexDigit
      let after := rest.dropWhile Color.isHexDigit
      if 3 ≤ digits.length ∧ digits.length ≤ 8 ∧ endsWord after.head? then
        some ('#' :: digits, after)
      else none
  | _ => none

/-- Takes a run of ASCII letters. -/
def scanLetters? (chars : List Char) : Option (List Char × List Char) :=
  let letters := chars.takeWhile Char.isAlpha
  if letters.isEmpty then none else some (letters, chars.dropWhile Char.isAlpha)

/-- Takes something that may be a color. -/
def scanLayerColor? (chars : List Char) : Option (List Char × List Char) :=
  match scanHexColor? chars with
  | some found => some found
  | none =>
      match scanColorFunction? false true chars with
      | some found => some found
      | none => scanLetters? chars

/-- The first candidate that is a color, with the text around it joined. -/
def firstColor : List (Match (List Char)) →
    Except Fault (Option (Color × List Char))
  | [] => .ok none
  | candidate :: rest => do
      match ← Color.parse (String.ofList candidate.found) with
      | some color =>
          return some (color, trimChars (candidate.before ++ candidate.after))
      | none => firstColor rest

/-- Two to four lengths as offsets, blur and spread. -/
def ofLengths? (lengths : List Dimension) (color : Color) (inset : Bool) :
    Option Shadow :=
  match lengths with
  | [x, y] => some ⟨x, y, Dimension.px 0.0, color, none, .bool inset⟩
  | [x, y, blur] => some ⟨x, y, blur, color, none, .bool inset⟩
  | [x, y, blur, spread] => some ⟨x, y, blur, color, some spread, .bool inset⟩
  | _ => none

/--
Reads one layer `[inset] x y [blur [spread]] [color]`; the color is black
when it is left out.
-/
def parseLayer (raw : String) : Except Fault (Option Shadow) := do
  let trimmed := trimChars raw.toList
  let inset := hasWholeWord "inset".toList none trimmed
  let text :=
    if inset then trimChars (dropWholeWord "inset".toList none trimmed) else trimmed
  let (color, rest) :=
    match ← firstColor (findAll scanLayerColor? text) with
    | some (color, rest) => (color, rest)
    | none => (Color.ofFloats 0.0 0.0 0.0 1.0, text)
  match (words rest).mapM
    (fun word => Dimension.parse (String.ofList word) "px") with
  | none => return none
  | some lengths => return ofLengths? lengths color inset

/-- Reads every piece, or none at all when one of them is unreadable. -/
def parseAll (read : String → Except Fault (Option Shadow)) (pieces : List String) :
    Except Fault (Option (List Shadow)) := do
  let shadows ← pieces.mapM read
  if shadows.isEmpty then return none
  return shadows.mapM id

/-- Reads one or more layers. -/
def parse (raw : String) : Except Fault (Option (List Shadow)) :=
  let text := trim raw
  if startsWith "Effect(".toList text.toList then
    parseAll (fun piece => .ok (parseEffect piece))
      (splitConstructors text "Effect")
  else parseAll parseLayer ((splitLayers text).filter (fun piece => piece != ""))

end Shadow

end DesignTokens
