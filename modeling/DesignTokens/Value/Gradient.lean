import DesignTokens.Color.Formats
import DesignTokens.Value.Shadow

namespace DesignTokens

/-!
# Gradients

A gradient has a type, color stops, and, when it is linear, possibly an angle.
Gradients are written as functions, or given as paint objects with handles.
-/

open DesignTokens.Text

/-- A color at a position between 0 and 1. -/
structure GradientStop where
  color : Color
  position : Wire
  deriving Inhabited

namespace GradientStop

/-- The document form. -/
def encode (stop : GradientStop) : Wire :=
  .object [("color", stop.color.encode), ("position", stop.position)]

/-- Reads the document form. -/
def decode (data : Wire) : Except Fault GradientStop := do
  let colorData ← data.require "color"
  let color ← Color.decode colorData
  let position ← data.require "position"
  return ⟨color, position⟩

/-- The written form, a color and a percentage. -/
def text (stop : GradientStop) : Except Fault String := do
  let color ← stop.color.toRgb
  let position ← stop.position.percentText
  return color ++ " " ++ position ++ "%"

end GradientStop

/-- A gradient; a null angle means that there is none. -/
structure Gradient where
  type : Wire
  stops : List GradientStop
  angle : Wire
  deriving Inhabited

namespace Gradient

/-- The types of gradients. -/
def types : List String := ["linear", "radial", "conic"]

/-- A member that is left out when its value is null. -/
def optionalMember (name : String) (value : Wire) : List (String × Wire) :=
  match value with
  | .null => []
  | other => [(name, other)]

/-- The document form; the angle is left out when there is none. -/
def encode (gradient : Gradient) : Wire :=
  .object
    ([ ("type", gradient.type),
      ("stops", .list (gradient.stops.map GradientStop.encode)) ] ++
      optionalMember "angle" gradient.angle)

/-- Reads the document form; everything may be left out. -/
def decode (data : Wire) : Except Fault Gradient := do
  let type ← data.getD "type" (.str "linear")
  let stopsData ← data.getD "stops" (.list [])
  let parts ← stopsData.parts
  let stops ← parts.mapM GradientStop.decode
  let angle ← data.getD "angle" .null
  return ⟨type, stops, angle⟩

/-- The angle of a linear gradient in six digits; a missing one is zero. -/
def angleText (gradient : Gradient) : Except Fault String :=
  if gradient.angle.isTruthy then gradient.angle.generalText else .ok "0"

/-- Whether the gradient is linear. -/
def isLinear (gradient : Gradient) : Bool :=
  match gradient.type with
  | .str name => name == "linear"
  | _ => false

/-- The written form. -/
def text (gradient : Gradient) : Except Fault String := do
  let stops ← gradient.stops.mapM GradientStop.text
  if gradient.isLinear then
    let angle ← gradient.angleText
    return "linear-gradient(" ++ angle ++ "deg, " ++ joinWith ", " stops ++ ")"
  else return gradient.type.display ++ "-gradient(" ++ joinWith ", " stops ++ ")"

/-- Takes the name of a gradient function and its opening parenthesis. -/
def scanName? (chars : List Char) : Option (List Char × List Char) :=
  types.findSome? fun type => do
    let rest ← scanWord? type.toList chars
    let after ← scanWord? "-gradient".toList rest
    let after ← after? ['('] (skipBlank after)
    return (chars.take (chars.length - rest.length), after)

/-- Whether a text starts with a gradient function. -/
def startsLikeGradient (chars : List Char) : Bool :=
  (scanName? chars).isSome

/-- Units of angles, each with its way to degrees. -/
def angleUnits : List (String × (Float → Float)) :=
  [ ("deg", fun value => value),
    ("turn", fun value => value * 360.0),
    ("rad", Color.degrees),
    ("grad", fun value => value * 0.9) ]

/-- Takes a comma with blanks on both sides. -/
def scanComma? (chars : List Char) : Option (List Char) := do
  let rest ← after? [','] (skipBlank chars)
  return skipBlank rest

/--
Takes an angle and the comma after it; degrees are meant when there is no unit.
-/
def scanAngle? (chars : List Char) : Option (Float × List Char) := do
  let (number, rest) ← Number.scanWholeFirst? chars
  match angleUnits.findSome?
    (fun unit => (afterText? unit.1 rest).map (fun after => (unit.2, after))) with
  | some (toDegrees, after) => do
      let after ← scanComma? after
      return (toDegrees number.toFloat, after)
  | none => do
      let after ← scanComma? rest
      return (number.toFloat, after)

/-- The angles of the written directions. -/
def directions : List (String × Float) :=
  [ ("top", 0.0), ("top right", 45.0), ("right top", 45.0), ("right", 90.0),
    ("bottom right", 135.0), ("right bottom", 135.0), ("bottom", 180.0),
    ("bottom left", 225.0), ("left bottom", 225.0), ("left", 270.0),
    ("top left", 315.0), ("left top", 315.0) ]

/-- Whether a character can stand in a direction. -/
def isDirectionChar (c : Char) : Bool :=
  c.isLower || c == ' '

/-- Takes `to`, a direction and the comma after it. -/
def scanDirection? (chars : List Char) : Option (Float × List Char) := do
  let rest ← afterText? "to" chars
  let rest ← Color.scanBlanks? rest
  let words := rest.takeWhile isDirectionChar
  let after ← scanComma? (rest.dropWhile isDirectionChar)
  let angle ← Wire.lookup? (String.ofList (trimEndWhile (· == ' ') words))
    directions
  return (angle, after)

/-- Takes a percentage, if there is one. -/
def scanPosition (chars : List Char) : Option Float × List Char :=
  match Number.scanUnsigned? chars with
  | some (number, '%' :: rest) => (some (number.toFloat / 100.0), rest)
  | _ => (none, chars)

/-- Takes a hexadecimal color of any length. -/
def scanHexDigits? (chars : List Char) : Option (List Char × List Char) :=
  match chars with
  | '#' :: rest =>
      let digits := rest.takeWhile Color.isHexDigit
      if digits.isEmpty then none
      else some ('#' :: digits, rest.dropWhile Color.isHexDigit)
  | _ => none

/-- Takes a run of letters, ignoring case. -/
def scanWordIgnoringCase? (chars : List Char) : Option (List Char × List Char) :=
  let letters := chars.takeWhile isLetterIgnoringCase
  if letters.isEmpty then none
  else some (letters, chars.dropWhile isLetterIgnoringCase)

/-- Takes something that may be a color. -/
def scanStopColor? (chars : List Char) : Option (List Char × List Char) :=
  match scanHexDigits? chars with
  | some found => some found
  | none =>
      match Shadow.scanColorFunction? true false chars with
      | some found => some found
      | none => scanWordIgnoringCase? chars

/-- Takes a possible color and a position after it. -/
def scanStop? (chars : List Char) :
    Option ((List Char × Option Float) × List Char) :=
  (scanStopColor? chars).map fun color =>
    let position := scanPosition (skipBlank color.2)
    ((color.1, position.1), position.2)

/--
The stops among the candidates; words that are no colors are passed over.  A
stop without a position sits at 0 when it is the first, and at 1 otherwise.
-/
def stopsOf (found : List GradientStop) :
    List (Match (List Char × Option Float)) → Except Fault (List GradientStop)
  | [] => .ok found
  | candidate :: rest => do
      match ← Color.parse (String.ofList candidate.found.1) with
      | none => stopsOf found rest
      | some color =>
          let position :=
            match candidate.found.2 with
            | some position => position
            | none => if found.isEmpty then 0.0 else 1.0
          stopsOf (found ++ [⟨color, .float position⟩]) rest

/-- The angle written at the front of a linear gradient, and the text after it. -/
def takeAngle (content : List Char) : Wire × List Char :=
  match scanAngle? content with
  | some (angle, rest) => (.float angle, rest)
  | none =>
      match scanDirection? content with
      | some (angle, rest) => (.float angle, rest)
      | none => (.null, content)

/-- Reads a gradient function. -/
def parse (raw : String) : Except Fault (Option Gradient) :=
  let text := trimChars raw.toList
  match scanName? text with
  | none => .ok none
  | some (name, rest) =>
      if text.getLast? ≠ some ')' then .ok none
      else do
        let type := String.ofList (lowerChars name)
        let content := trimChars rest.dropLast
        let (angle, content) :=
          if type = "linear" then takeAngle content else (.null, content)
        let stops ← stopsOf [] (findAll scanStop? content)
        if stops.isEmpty then return none
        return some ⟨.str type, stops, angle⟩

/-- The types of paint objects, each with its type of gradient. -/
def paintTypes : List (String × String) :=
  [ ("GRADIENT_LINEAR", "linear"), ("GRADIENT_RADIAL", "radial"),
    ("GRADIENT_ANGULAR", "conic") ]

/-- The difference of two numbers. -/
def difference (left right : Wire) : Except Fault Float :=
  match left, right with
  | .int left, .int right => Number.ofInt? (left - right)
  | left, right => do
      let left ← Color.channel left
      let right ← Color.channel right
      return left - right

/-- The item at a position of a list. -/
def itemAt (index : Nat) (data : Wire) : Except Fault Wire :=
  match data with
  | .obj _ => .error (.missingKey (Number.intText (Int.ofNat index)))
  | other => do
      let parts ← other.parts
      match parts[index]? with
      | some part => return part
      | none => throw .outOfRange

/-- How many parts a value has. -/
def sizeOf (data : Wire) : Except Fault Nat := do
  let parts ← data.parts
  return parts.length

/-- The angle from the first handle to the second, measured from the top. -/
def handleAngle (handles : Wire) : Except Fault Float := do
  let start ← itemAt 0 handles
  let stop ← itemAt 1 handles
  let endY ← stop.require "y"
  let startY ← start.require "y"
  let dy ← difference endY startY
  let endX ← stop.require "x"
  let startX ← start.require "x"
  let dx ← difference endX startX
  return Number.floorRemainder (Color.degrees (Float.atan2 dy dx) + 90.0) 360.0

/-- One stop of a paint object. -/
def paintStop (data : Wire) : Except Fault GradientStop := do
  let color (name : String) : Except Fault Wire := do
    let color ← data.require "color"
    color.require name
  let r ← color "r"
  let g ← color "g"
  let b ← color "b"
  let colorData ← data.require "color"
  let a ← colorData.getD "a" (.float 1.0)
  let position ← data.require "position"
  return ⟨⟨r, g, b, a⟩, position⟩

/-- The type of gradient of a paint object. -/
def paintType (data : Wire) : Except Fault String :=
  match data with
  | .str name => .ok ((Wire.lookup? name paintTypes).getD "linear")
  | other => if other.isKey then .ok "linear" else .error other.keyFault

/-- Reads a paint object with stops and handles. -/
def ofPaint (data : Wire) : Except Fault (Option Gradient) :=
  match data with
  | .obj members => do
      let stopsData := (Wire.lookup? "gradientStops" members).getD .null
      if !stopsData.isTruthy then return none
      let type ← paintType ((Wire.lookup? "type" members).getD (.str ""))
      let handlesData := (Wire.lookup? "gradientHandlePositions" members).getD .null
      let handles := if handlesData.isTruthy then handlesData else .list []
      let angle ←
        if type = "linear" then do
          let size ← sizeOf handles
          if 2 ≤ size then (handleAngle handles).map Wire.float else pure .null
        else pure .null
      let parts ← stopsData.parts
      let stops ← parts.mapM paintStop
      return some ⟨.str type, stops, angle⟩
  | _ => .ok none

end Gradient

end DesignTokens
