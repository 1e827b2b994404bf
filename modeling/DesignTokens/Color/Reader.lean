import DesignTokens.Color.Basic
import DesignTokens.Color.Hue
import DesignTokens.Number.Literal
import DesignTokens.Text.Casing
import DesignTokens.Text.Split
import DesignTokens.Wire.Reader

namespace DesignTokens.Color

/-!
# Reading colors

The written forms of colors: hexadecimal digits, the functions `rgb`, `hsl` and
`oklch`, and a few names.  A reader answers `none` for a text of another form.
The only fault is an `oklch` hue too large for a double, which has no cosine.
-/

open DesignTokens.Text
open DesignTokens.Number (Literal scanMinus scanDigits scanExponent)

/-- The named colors. -/
def named : List (String × Color) :=
  [ ("black", ofFloats 0.0 0.0 0.0 1.0),
    ("white", ofFloats 1.0 1.0 1.0 1.0),
    ("transparent", ofFloats 0.0 0.0 0.0 0.0),
    ("red", ofFloats 1.0 0.0 0.0 1.0),
    ("green", ofFloats 0.0 0.502 0.0 1.0),
    ("blue", ofFloats 0.0 0.0 1.0 1.0) ]

/-- Words that are colors but carry no value. -/
def keywords : List String := ["currentcolor", "inherit"]

/-- Whether a character is an ASCII hexadecimal digit. -/
def isHexDigit (c : Char) : Bool :=
  (Reader.hexValue? c).isSome

/-- The channel written by two hexadecimal digits. -/
def hexChannel (high low : Char) : Float :=
  let value := (Reader.hexValue? high).getD 0 * 16 + (Reader.hexValue? low).getD 0
  Number.ofInt value / 255.0

/-- Reads `#rgb`, `#rgba`, `#rrggbb` or `#rrggbbaa`. -/
def parseHex (text : String) : Option Color :=
  match trimChars text.toList with
  | '#' :: digits =>
      if !digits.all isHexDigit then none
      else
        match digits with
        | [r, g, b] =>
            some (ofFloats (hexChannel r r) (hexChannel g g) (hexChannel b b) 1.0)
        | [r, g, b, a] =>
            some
              (ofFloats (hexChannel r r) (hexChannel g g) (hexChannel b b)
                (hexChannel a a))
        | [r, r', g, g', b, b'] =>
            some
              (ofFloats (hexChannel r r') (hexChannel g g') (hexChannel b b') 1.0)
        | [r, r', g, g', b, b', a, a'] =>
            some
              (ofFloats (hexChannel r r') (hexChannel g g') (hexChannel b b')
                (hexChannel a a'))
        | _ => none
  | _ => none

/-- An exponent of a channel: no plus sign is allowed. -/
def scanChannelExponent (chars : List Char) : Int × List Char :=
  match chars with
  | _ :: '+' :: _ => (0, chars)
  | chars => scanExponent chars

/-- Takes a channel number such as `12`, `12.`, `.5` or `1e-3`. -/
def scanChannel? (chars : List Char) : Option (Float × List Char) :=
  let sign := scanMinus chars
  let whole := scanDigits sign.2
  let fraction :=
    match whole.2 with
    | '.' :: rest => scanDigits rest
    | rest => ([], rest)
  if whole.1.isEmpty && fraction.1.isEmpty then none
  else
    let exponent := scanChannelExponent fraction.2
    some ((Literal.mk sign.1 whole.1 fraction.1 exponent.1).toFloat, exponent.2)

/-- Takes a percent sign, if there is one. -/
def scanPercent : List Char → Bool × List Char
  | '%' :: rest => (true, rest)
  | chars => (false, chars)

/-- Takes what separates channels: a comma, or blanks. -/
def scanSeparator? (chars : List Char) : Option (List Char) :=
  match skipBlank chars with
  | ',' :: rest => some (skipBlank rest)
  | rest => if rest.length < chars.length then some rest else none

/-- Takes the unit of a hue, if there is one. -/
def scanDegrees (chars : List Char) : List Char :=
  (scanWord? ['d', 'e', 'g'] chars).getD chars

/-- A channel that may be a percentage, as a part of `whole`. -/
def channelPart (whole value : Float) (percent : Bool) : Float :=
  limit (if percent then value / 100.0 else value / whole)

/--
Takes the end of a color function: an alpha after one of the given marks, if
there is one, and the closing parenthesis at the end of the text.
-/
def scanAlphaEnd? (marks : List Char) (chars : List Char) : Option Float :=
  match skipBlank chars with
  | [')'] => some 1.0
  | mark :: rest =>
      if marks.contains mark then do
        let (value, rest) ← scanChannel? (skipBlank rest)
        let (percent, rest) := scanPercent rest
        if skipBlank rest = [')'] then some (channelPart 1.0 value percent)
        else none
      else none
  | [] => none

/-- Takes a function name that may end in `a`, and the opening parenthesis. -/
def scanFunction? (name : List Char) (chars : List Char) : Option (List Char) :=
  match scanWord? (name ++ ['a', '(']) chars with
  | some rest => some rest
  | none => scanWord? (name ++ ['(']) chars

/-- Reads `rgb(…)`; channels are 0 to 255 or percentages. -/
def parseRgb (text : String) : Option Color := do
  let rest ← scanFunction? ['r', 'g', 'b'] (trimChars text.toList)
  let (red, rest) ← scanChannel? (skipBlank rest)
  let (redPercent, rest) := scanPercent rest
  let rest ← scanSeparator? rest
  let (green, rest) ← scanChannel? rest
  let (greenPercent, rest) := scanPercent rest
  let rest ← scanSeparator? rest
  let (blue, rest) ← scanChannel? rest
  let (bluePercent, rest) := scanPercent rest
  let alpha ← scanAlphaEnd? [',', '/'] rest
  return ofFloats (channelPart 255.0 red redPercent)
    (channelPart 255.0 green greenPercent)
    (channelPart 255.0 blue bluePercent) alpha

/-- The color of a hue in degrees, a saturation, a lightness and an alpha. -/
def ofHslFloats (hue saturation lightness alpha : Float) : Color :=
  let channels := ofHsl hue saturation lightness
  ofFloats channels.1 channels.2.1 channels.2.2 (limit alpha)

/-- Reads `hsl(…)`. -/
def parseHsl (text : String) : Option Color := do
  let rest ← scanFunction? ['h', 's', 'l'] (trimChars text.toList)
  let (hue, rest) ← scanChannel? (skipBlank rest)
  let rest ← scanSeparator? (scanDegrees rest)
  let (saturation, rest) ← scanChannel? rest
  let rest ← afterText? "%" rest
  let rest ← scanSeparator? rest
  let (lightness, rest) ← scanChannel? rest
  let rest ← afterText? "%" rest
  let alpha ← scanAlphaEnd? [',', '/'] rest
  return ofHslFloats hue (limit (saturation / 100.0))
    (limit (lightness / 100.0)) alpha

/-- Takes at least one blank. -/
def scanBlanks? (chars : List Char) : Option (List Char) :=
  match chars with
  | c :: _ => if isBlank c then some (skipBlank chars) else none
  | [] => none

/-- Lightness, chroma, hue in degrees and alpha of a written `oklch(…)`. -/
structure OklchText where
  lightness : Float
  chroma : Float
  hue : Float
  alpha : Float

/-- Takes `oklch(…)` apart. -/
def scanOklch? (text : String) : Option OklchText := do
  let rest ← scanWord? ['o', 'k', 'l', 'c', 'h', '('] (trimChars text.toList)
  let (lightness, rest) ← scanChannel? (skipBlank rest)
  let (percent, rest) := scanPercent rest
  let rest ← scanBlanks? rest
  let (chroma, rest) ← scanChannel? rest
  let rest ← scanBlanks? rest
  let (hue, rest) ← scanChannel? rest
  let alpha ← scanAlphaEnd? ['/'] (scanDegrees rest)
  return ⟨if percent then lightness / 100.0 else lightness, chroma, hue, alpha⟩

/-- The ratio of a circle's circumference to its diameter, as a double. -/
def pi : Float := 3.141592653589793

/-- Degrees in radians. -/
def radians (degrees : Float) : Float :=
  degrees * (pi / 180.0)

/-- Radians in degrees. -/
def degrees (radians : Float) : Float :=
  radians * (180.0 / pi)

/-- Reads `oklch(…)` by an approximation with three shifted cosines of the hue. -/
def parseOklch (text : String) : Except Fault (Option Color) :=
  match scanOklch? text with
  | none => .ok none
  | some written =>
      let hue := radians written.hue
      if hue.isInf then .error (.badValue "an infinite angle has no cosine")
      else
        let channel (shift : Float) : Float :=
          limit (written.lightness + written.chroma * Float.cos shift)
        .ok (some (ofFloats (channel hue) (channel (hue - 2.094))
          (channel (hue + 2.094)) written.alpha))

/-- Looks a color name up, ignoring case. -/
def parseNamed (text : String) : Option Color :=
  Wire.lookup? (lower (trim text)) named

/-- Reads a color in any written form. -/
def parse (text : String) : Except Fault (Option Color) :=
  let text := trim text
  if text = "" then .ok none
  else if startsWith ['#'] text.toList then .ok (parseHex text)
  else
    let lowered := lower text
    if startsWith "rgb".toList lowered.toList then .ok (parseRgb lowered)
    else if startsWith "hsl".toList lowered.toList then .ok (parseHsl lowered)
    else if startsWith "oklch".toList lowered.toList then parseOklch lowered
    else .ok (parseNamed lowered)

/-- Whether a text is written as a color, with or without a value of its own. -/
def isColorText (text : String) : Except Fault Bool := do
  let lowered := lower (trim text)
  if keywords.contains lowered then return true
  let color ← parse lowered
  return color.isSome

end DesignTokens.Color
