import DesignTokens.Color.Reader
import DesignTokens.Number.Layout
import DesignTokens.Wire.Display

namespace DesignTokens.Color

/-!
# Writing colors

The four written forms of a color.  Alpha is written only when it is below one.
Channels that came from a document may be no numbers at all; then the form
cannot be written.
-/

/-- A channel as a number; other kinds are refused. -/
def channel (value : Wire) : Except Fault Float :=
  match value.number? with
  | some number => number
  | none => .error (.wrongKind ("'" ++ value.kind ++ "' is no channel"))

/-- A channel in 255ths; whole channels are multiplied exactly. -/
def byte : Wire → Except Fault Int
  | .bool value => .ok (if value then 255 else 0)
  | .int value => .ok (value * 255)
  | .float value => Number.roundToInt (value * 255.0)
  | value => .error (.wrongKind ("'" ++ value.kind ++ "' is no channel"))

/-- Whether a channel is below one. -/
def isBelowOne : Wire → Except Fault Bool
  | .bool value => .ok !value
  | .int value => .ok (decide (value < 1))
  | .float value => .ok (decide (value < 1.0))
  | value => .error (.wrongKind ("'" ++ value.kind ++ "' is no channel"))

/-- An alpha with two places. -/
def alphaText (color : Color) : Except Fault String := do
  let alpha ← channel color.a
  return Number.fixedText 2 alpha

/-- Writes `#rrggbb`, or `#rrggbbaa` when alpha is below one. -/
def toHex (color : Color) : Except Fault String := do
  let r ← byte color.r
  let g ← byte color.g
  let b ← byte color.b
  let opaqueText :=
    "#" ++ Number.hexByteText r ++ Number.hexByteText g ++ Number.hexByteText b
  if ← isBelowOne color.a then
    let a ← byte color.a
    return opaqueText ++ Number.hexByteText a
  else return opaqueText

/-- Writes `rgb(…)`, or `rgba(…)` when alpha is below one. -/
def toRgb (color : Color) : Except Fault String := do
  let r ← byte color.r
  let g ← byte color.g
  let b ← byte color.b
  let channels :=
    Number.intText r ++ ", " ++ Number.intText g ++ ", " ++ Number.intText b
  if ← isBelowOne color.a then
    let alpha ← alphaText color
    return "rgba(" ++ channels ++ ", " ++ alpha ++ ")"
  else return "rgb(" ++ channels ++ ")"

/-- Writes `hsl(…)`, or `hsla(…)` when alpha is below one. -/
def toHslText (color : Color) : Except Fault String := do
  let r ← channel color.r
  let g ← channel color.g
  let b ← channel color.b
  let hsl ← toHsl r g b
  let hue ← Number.roundToInt (hsl.hue * 360.0)
  let saturation ← Number.roundToInt (hsl.saturation * 100.0)
  let lightness ← Number.roundToInt (hsl.lightness * 100.0)
  let parts :=
    Number.intText hue ++ ", " ++ Number.intText saturation ++ "%, " ++
      Number.intText lightness ++ "%"
  if ← isBelowOne color.a then
    let alpha ← alphaText color
    return "hsla(" ++ parts ++ ", " ++ alpha ++ ")"
  else return "hsl(" ++ parts ++ ")"

/-- Three numbers that are transformed together. -/
structure Triple where
  first : Float
  second : Float
  third : Float

/-- The rows of a transformation. -/
structure Matrix where
  first : Triple
  second : Triple
  third : Triple

/-- A row times a triple. -/
def Triple.dot (row vector : Triple) : Float :=
  row.first * vector.first + row.second * vector.second + row.third * vector.third

/-- A transformation applied to a triple. -/
def Matrix.apply (matrix : Matrix) (vector : Triple) : Triple :=
  ⟨matrix.first.dot vector, matrix.second.dot vector, matrix.third.dot vector⟩

/-- Linear sRGB to CIE XYZ. -/
def rgbToXyz : Matrix :=
  ⟨⟨0.4124564, 0.3575761, 0.1804375⟩,
   ⟨0.2126729, 0.7151522, 0.0721750⟩,
   ⟨0.0193339, 0.1191920, 0.9503041⟩⟩

/-- CIE XYZ to the response of the cones. -/
def xyzToLms : Matrix :=
  ⟨⟨0.8189330101, 0.3618667424, -0.1288597137⟩,
   ⟨0.0329845436, 0.9293118715, 0.0361456387⟩,
   ⟨0.0482003018, 0.2643662691, 0.6338517070⟩⟩

/-- The compressed cone response to Oklab. -/
def lmsToOklab : Matrix :=
  ⟨⟨0.2104542553, 0.7936177850, -0.0040720468⟩,
   ⟨1.9779984951, -2.4285922050, 0.4505937099⟩,
   ⟨0.0259040371, 0.7827717662, -0.8086757660⟩⟩

/-- A power that must stay finite when its base is finite. -/
def power (base exponent : Float) : Except Fault Float :=
  let result := Float.pow base exponent
  if result.isInf && !base.isInf then .error (.overflow "a power is too large")
  else .ok result

/-- A channel without its gamma curve. -/
def toLinear (value : Float) : Except Fault Float :=
  if value ≤ 0.04045 then .ok (value / 12.92)
  else power ((value + 0.055) / 1.055) 2.4

/-- The cube root with the sign of its argument. -/
def signedCubeRoot (value : Float) : Float :=
  Number.copySign (Float.pow (Float.abs value) (1.0 / 3.0)) value

/-- Oklab lightness and the two color axes. -/
def toOklab (color : Color) : Except Fault Triple := do
  let r ← channel color.r
  let r ← toLinear r
  let g ← channel color.g
  let g ← toLinear g
  let b ← channel color.b
  let b ← toLinear b
  let lms := xyzToLms.apply (rgbToXyz.apply ⟨r, g, b⟩)
  return lmsToOklab.apply
    ⟨signedCubeRoot lms.first, signedCubeRoot lms.second, signedCubeRoot lms.third⟩

/-- Lightness, chroma, and hue in degrees from 0 to 360. -/
def toOklchParts (color : Color) : Except Fault Triple := do
  let lab ← toOklab color
  let chroma := Float.sqrt (lab.second * lab.second + lab.third * lab.third)
  let hue := degrees (Float.atan2 lab.third lab.second)
  return ⟨lab.first, chroma, if hue < 0.0 then hue + 360.0 else hue⟩

/-- Writes `oklch(…)`, with alpha after a slash when it is below one. -/
def toOklch (color : Color) : Except Fault String := do
  let parts ← toOklchParts color
  let body :=
    Number.fixedText 2 (parts.first * 100.0) ++ "% " ++
      Number.fixedText 4 parts.second ++ " " ++
      Number.fixedText 2 parts.third
  if ← isBelowOne color.a then
    let alpha ← alphaText color
    return "oklch(" ++ body ++ " / " ++ alpha ++ ")"
  else return "oklch(" ++ body ++ ")"

/-- The sentence for a color format that does not exist. -/
def unsupportedFormat (format : String) : String :=
  "Unsupported color format: " ++ format

/-- Writes a color in the format of the given name. -/
def toText (color : Color) (format : String) : Except Fault String :=
  if format = "hex" then toHex color
  else if format = "rgb" then toRgb color
  else if format = "hsl" then toHslText color
  else if format = "oklch" then toOklch color
  else .error (.badValue (unsupportedFormat format))

end DesignTokens.Color
