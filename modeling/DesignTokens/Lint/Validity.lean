import DesignTokens.Value.Basic

namespace DesignTokens.Lint

/-!
# Valid values

What is wrong with a value, one sentence for each flaw; a valid value has none.
A number that is too large to be compared is a fault.
-/

open DesignTokens.Text (joinWith lower)

/-- Whether a value is a finite number; truth values are none. -/
def isFiniteNumber (value : Wire) : Except Fault Bool :=
  match value with
  | .int whole => (Number.ofInt? whole).map (fun _ => true)
  | .float number => .ok number.isFinite
  | _ => .ok false

/-- A number between two whole ones, ends included. -/
def isBetween (low high : Int) (value : Wire) : Bool :=
  match value with
  | .int whole => decide (low ≤ whole) && decide (whole ≤ high)
  | .float number =>
      decide (Number.ofInt low ≤ number) && decide (number ≤ Number.ofInt high)
  | _ => false

/-- Whether a number is below zero. -/
def isNegative (value : Wire) : Bool :=
  match value with
  | .int whole => decide (whole < 0)
  | .float number => decide (number < 0.0)
  | _ => false

/-- Whether a number is above zero. -/
def isPositive (value : Wire) : Bool :=
  match value with
  | .int whole => decide (0 < whole)
  | .float number => decide (0.0 < number)
  | _ => false

/-- Whether a value is a finite number from 0 to 1. -/
def isShare (value : Wire) : Except Fault Bool := do
  let finite ← isFiniteNumber value
  return finite && isBetween 0 1 value

/--
Whether every value passes a check; the first that does not ends the checking.
-/
def everyOne (check : Wire → Except Fault Bool) : List Wire → Except Fault Bool
  | [] => .ok true
  | value :: rest => do
      if ← check value then everyOne check rest else return false

/-- Whether a value is one of some words. -/
def isOneOf (words : List String) (value : Wire) : Bool :=
  match value with
  | .str text => words.contains text
  | _ => false

/-- The sentence, unless all is well. -/
def flawUnless (fine : Bool) (sentence : String) : List String :=
  if fine then [] else [sentence]

/-- The flaws of a color under a label. -/
def colorFlaws (label : String) (color : Color) : Except Fault (List String) := do
  let channels ← everyOne isShare [color.r, color.g, color.b]
  let alpha ← isShare color.a
  return flawUnless channels
    ("Invalid " ++ label ++ " value: RGB values must be between 0 and 1") ++
    flawUnless alpha
      ("Invalid " ++ label ++ " alpha value: must be between 0 and 1")

/-- The flaws of a length under a label. -/
def dimensionFlaws (label : String) (allowNegative : Bool) (dimension : Dimension) :
    Except Fault (List String) := do
  let finite ← isFiniteNumber dimension.value
  let number :=
    if !finite then ["Invalid " ++ label ++ ": value must be a finite number"]
    else
      flawUnless (allowNegative || !isNegative dimension.value)
        ("Invalid " ++ label ++ ": value must not be negative")
  return number ++
    flawUnless (isOneOf Dimension.units dimension.unit)
      ("Invalid " ++ label ++ " unit \"" ++ dimension.unit.display ++
        "\": expected one of " ++ joinWith ", " Dimension.units)

/-- The flaws of an easing curve. -/
def curveFlaws (curve : CubicBezier) : Except Fault (List String) := do
  let finite ← everyOne isFiniteNumber [curve.x1, curve.y1, curve.x2, curve.y2]
  if !finite then
    return ["Invalid cubic bezier: control points must be finite numbers"]
  return flawUnless (isBetween 0 1 curve.x1 && isBetween 0 1 curve.x2)
    "Invalid cubic bezier: x1 and x2 must be between 0 and 1"

/-- Whether a number is one of the weights that fonts have. -/
def isWeight (value : Wire) : Bool :=
  match value with
  | .int whole => FontWeight.weights.any (fun weight => Int.ofNat weight == whole)
  | .float number =>
      FontWeight.weights.any
        (fun weight => Number.ofInt (Int.ofNat weight) == number)
  | _ => false

/-- The flaws of the value of a color token. -/
def colorTokenFlaws : TokenValue → Except Fault (List String)
  | .color color => colorFlaws "color" color
  | _ => .ok ["Invalid color: expected an RGBA color"]

/-- The flaws of the value of a dimension token. -/
def dimensionTokenFlaws : TokenValue → Except Fault (List String)
  | .dimension dimension => dimensionFlaws "dimension" true dimension
  | _ => .ok ["Invalid dimension: expected a value with a unit"]

/-- The units of time. -/
def timeUnits : List String := ["ms", "s"]

/-- The flaws of the value of a duration token. -/
def durationTokenFlaws : TokenValue → Except Fault (List String)
  | .duration duration => do
      let finite ← isFiniteNumber duration.value
      return flawUnless (finite && !isNegative duration.value)
          "Invalid duration: value must be a non-negative number" ++
        flawUnless (isOneOf timeUnits duration.unit)
          ("Invalid duration unit \"" ++ duration.unit.display ++
            "\": expected ms or s")
  | _ => .ok ["Invalid duration: expected a value with a ms or s unit"]

/-- Whether a value is a keyword for a font weight. -/
def isWeightKeyword (value : Wire) : Bool :=
  match value with
  | .str text => Wire.has (lower text) FontWeight.keywords
  | _ => false

/-- The flaws of the value of a font weight token. -/
def fontWeightTokenFlaws (value : TokenValue) : Except Fault (List String) := do
  let weight := value.encode
  if isWeightKeyword weight then return []
  let finite ← isFiniteNumber weight
  return flawUnless (finite && isWeight weight)
    ("Invalid font weight: " ++ weight.quoted)

/-- The flaws of a line height. -/
def lineHeightFlaws : LineHeight → Except Fault (List String)
  | .length height => dimensionFlaws "line height" false height
  | .ratio value => do
      let finite ← isFiniteNumber value
      return flawUnless (finite && isPositive value)
        "Invalid typography: line height must be positive"

/-- The flaws of the value of a typography token. -/
def typographyTokenFlaws : TokenValue → Except Fault (List String)
  | .typography style => do
      let size ← dimensionFlaws "font size" false style.fontSize
      let height ← lineHeightFlaws style.lineHeight
      let spacing ←
        match style.letterSpacing? with
        | some spacing => dimensionFlaws "letter spacing" true spacing
        | none => pure []
      return flawUnless (!style.fontFamily.isEmpty)
        "Invalid typography: font family is empty" ++ size ++
        flawUnless (isWeight style.fontWeight)
          ("Invalid typography: font weight " ++ style.fontWeight.quoted) ++
        height ++ spacing
  | _ => .ok ["Invalid typography: expected a typography object"]

/-- The flaws of a shadow layer. -/
def shadowFlaws (shadow : Shadow) : Except Fault (List String) := do
  let x ← dimensionFlaws "shadow offset" true shadow.offsetX
  let y ← dimensionFlaws "shadow offset" true shadow.offsetY
  let blur ← dimensionFlaws "shadow blur" false shadow.blur
  let spread ←
    match shadow.spread? with
    | some spread => dimensionFlaws "shadow spread" true spread
    | none => pure []
  let color ← colorFlaws "shadow color" shadow.color
  return x ++ y ++ blur ++ spread ++ color

/-- The flaws of shadow layers, or of having none. -/
def layersFlaws (layers : List Shadow) : Except Fault (List String) := do
  if layers.isEmpty then return ["Invalid shadow: no layers"]
  let flaws ← layers.mapM shadowFlaws
  return flaws.flatten

/-- The flaws of the value of a shadow token. -/
def shadowTokenFlaws : TokenValue → Except Fault (List String)
  | .shadow layer => shadowFlaws layer
  | .shadows layers => layersFlaws layers
  | .plain (.list []) => .ok ["Invalid shadow: no layers"]
  | .plain (.list items) =>
      .ok (items.map (fun _ => "Invalid shadow: expected a shadow object"))
  | _ => .ok ["Invalid shadow: expected a shadow object"]

/-- The flaws of a color stop. -/
def stopFlaws (stop : GradientStop) : Except Fault (List String) := do
  let position ← isShare stop.position
  let color ← colorFlaws "gradient stop color" stop.color
  return flawUnless position
    "Invalid gradient stop position: must be between 0 and 1" ++ color

/-- The flaws of the value of a gradient token. -/
def gradientTokenFlaws : TokenValue → Except Fault (List String)
  | .gradient gradient => do
      let stops ← gradient.stops.mapM stopFlaws
      return flawUnless (isOneOf Gradient.types gradient.type)
          ("Invalid gradient type \"" ++ gradient.type.display ++ "\"") ++
        flawUnless (decide (2 ≤ gradient.stops.length))
          "Invalid gradient: at least two color stops are required" ++
        stops.flatten
  | _ => .ok ["Invalid gradient: expected a gradient object"]

/-- The flaws of the value of a border token. -/
def borderTokenFlaws : TokenValue → Except Fault (List String)
  | .border border => do
      let width ← dimensionFlaws "border width" false border.width
      let color ← colorFlaws "border color" border.color
      return width ++
        flawUnless (isOneOf Border.styles border.style)
          ("Invalid border style \"" ++ border.style.display ++ "\"") ++
        color
  | _ => .ok ["Invalid border: expected a border object"]

/-- The flaws of a timing function; keywords have none. -/
def timingFlaws : Timing → Except Fault (List String)
  | .curve curve => curveFlaws curve
  | _ => .ok []

/-- The flaws of the easing curve of a token. -/
def curveTokenFlaws : TokenValue → Except Fault (List String)
  | .cubicBezier curve => curveFlaws curve
  | .transition transition => timingFlaws transition.timing
  | .animation animation =>
      match animation.timing? with
      | some timing => timingFlaws timing
      | none => .ok []
  | _ => .ok ["Invalid cubic bezier: expected four control point coordinates"]

end DesignTokens.Lint
