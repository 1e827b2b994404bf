import DesignTokens.Text.Search
import DesignTokens.Text.Split
import DesignTokens.Value.Number

namespace DesignTokens

/-!
# Durations, easing curves and transitions

A time span, the curve that a change follows, and the shorthand that combines
them.
-/

open DesignTokens.Text

/-- A time span in milliseconds or seconds. -/
structure Duration where
  value : Wire
  unit : Wire
  deriving Inhabited

namespace Duration

/-- The units of time. -/
def units : List String := ["ms", "s"]

/-- The document form. -/
def encode (duration : Duration) : Wire :=
  .object [("value", duration.value), ("unit", duration.unit)]

/-- Reads the document form; milliseconds are meant when the unit is left out. -/
def decode (data : Wire) : Except Fault Duration := do
  let value ← data.require "value"
  let unit ← data.getD "unit" (.str "ms")
  return ⟨value, unit⟩

/-- The written form, number and unit without a space. -/
def text (duration : Duration) : Except Fault String := do
  let number ← duration.value.numberText
  return number ++ duration.unit.display

/-- A number and a unit as written; the unit may be missing. -/
def scan? (chars : List Char) : Option (Float × Option String) :=
  match Number.scanUnsigned? chars with
  | some (number, []) => some (number.toFloat, none)
  | some (number, ['m', 's']) => some (number.toFloat, some "ms")
  | some (number, ['s']) => some (number.toFloat, some "s")
  | _ => none

/-- Reads a time span; a bare number is in milliseconds. -/
def ofChars? (chars : List Char) : Option Duration :=
  (scan? chars).map (fun written => ⟨.float written.1, .str (written.2.getD "ms")⟩)

/-- Reads a time span, blanks around it aside. -/
def parse (text : String) : Option Duration :=
  ofChars? (trimChars text.toList)

/-- Whether a text is a number with a unit of time. -/
def isExplicit (chars : List Char) : Bool :=
  match scan? chars with
  | some (_, some _) => true
  | _ => false

end Duration

/-- The two control points of an easing curve. -/
structure CubicBezier where
  x1 : Wire
  y1 : Wire
  x2 : Wire
  y2 : Wire
  deriving Inhabited

namespace CubicBezier

/-- The coordinates in order. -/
def points (curve : CubicBezier) : List Wire :=
  [curve.x1, curve.y1, curve.x2, curve.y2]

/-- The document form, a list of four numbers. -/
def encode (curve : CubicBezier) : Wire :=
  .list curve.points

/-- Reads a list of four numbers, or an object that names them. -/
def decode (data : Wire) : Except Fault CubicBezier :=
  match data with
  | .obj _ => do
      let x1 ← data.require "x1"
      let y1 ← data.require "y1"
      let x2 ← data.require "x2"
      let y2 ← data.require "y2"
      return ⟨x1, y1, x2, y2⟩
  | other => do
      let parts ← other.parts
      match parts with
      | [x1, y1, x2, y2] => return ⟨x1, y1, x2, y2⟩
      | _ => throw (.badValue "an easing curve has four coordinates")

/-- The written form. -/
def text (curve : CubicBezier) : Except Fault String := do
  let parts ← curve.points.mapM Wire.numberText
  return "cubic-bezier(" ++ joinWith ", " parts ++ ")"

/-- Whether a character can stand in a coordinate. -/
def isCoordinateChar (c : Char) : Bool :=
  isDecimal c || c == '.'

/--
Takes a coordinate: digits and points in any order, after an
optional minus sign.
-/
def scanCoordinate? (chars : List Char) : Option (List Char × List Char) :=
  let sign := Number.scanMinus chars
  let digits := sign.2.takeWhile isCoordinateChar
  if digits.isEmpty then none
  else some (if sign.1 then '-' :: digits
  else digits, sign.2.dropWhile isCoordinateChar)

/-- Takes a coordinate with blanks on both sides, and the mark that ends it. -/
def scanCoordinateUpTo? (mark : Char) (chars : List Char) :
    Option (List Char × List Char) := do
  let (digits, rest) ← scanCoordinate? (skipBlank chars)
  let rest ← after? [mark] (skipBlank rest)
  return (digits, rest)

/-- Takes a curve as written, the coordinates still as text. -/
def scan? (chars : List Char) : Option (List (List Char) × List Char) := do
  let rest ← afterText? "cubic-bezier" chars
  let rest ← after? ['('] (skipBlank rest)
  let (x1, rest) ← scanCoordinateUpTo? ',' rest
  let (y1, rest) ← scanCoordinateUpTo? ',' rest
  let (x2, rest) ← scanCoordinateUpTo? ',' rest
  let (y2, rest) ← scanCoordinateUpTo? ')' rest
  return ([x1, y1, x2, y2], rest)

/--
The first curve written in a text: what stands before it, its coordinates,
what follows it.
-/
def find? (chars : List Char) : Option (List Char × List (List Char) × List Char) :=
  findFirst scan? chars

/-- The curve of four written coordinates, if each of them is a numeral. -/
def ofCoordinates? (coordinates : List (List Char)) : Option CubicBezier :=
  match coordinates.mapM
    (fun digits => Number.readFloat? (String.ofList digits)) with
  | some [x1, y1, x2, y2] => some ⟨.float x1, .float y1, .float x2, .float y2⟩
  | _ => none

/-- Reads the first curve written in a text. -/
def parse (text : String) : Option CubicBezier :=
  match find? text.toList with
  | some (_, coordinates, _) => ofCoordinates? coordinates
  | none => none

end CubicBezier

/-- How a change runs: a keyword or a curve. -/
inductive Timing where
  | keyword (name : String)
  | curve (points : CubicBezier)
  deriving Inhabited

namespace Timing

/-- The easing keywords. -/
def keywords : List String :=
  ["linear", "ease", "ease-in", "ease-out", "ease-in-out"]

/-- The document form. -/
def encode : Timing → Wire
  | .keyword name => .str name
  | .curve points => points.encode

/-- Reads the document form. -/
def decode (data : Wire) : Except Fault Timing :=
  match data with
  | .str name => .ok (.keyword name)
  | other => (CubicBezier.decode other).map Timing.curve

/-- The written form. -/
def text : Timing → Except Fault String
  | .keyword name => .ok name
  | .curve points => points.text

/-- Reads a keyword or a curve. -/
def parse (text : String) : Option Timing :=
  let text := trim text
  if keywords.contains text then some (.keyword text)
  else (CubicBezier.parse text).map Timing.curve

end Timing

/--
Reads an optional time span; anything that counts as empty means there is none.
-/
def Duration.decodeOptional (data : Wire) : Except Fault (Option Duration) :=
  if data.isTruthy then (Duration.decode data).map some else .ok none

/-- A text with its first easing curve taken out, and that curve. -/
structure WithoutCurve where
  curve? : Option CubicBezier
  rest : List Char

/-- Takes the first easing curve out of a text. -/
def takeCurve (chars : List Char) : WithoutCurve :=
  match CubicBezier.find? chars with
  | some (before, coordinates, after) =>
      ⟨CubicBezier.ofCoordinates? coordinates, trimChars (before ++ ' ' :: after)⟩
  | none => ⟨none, chars⟩

/-- A duration, its easing and an optional delay. -/
structure Transition where
  duration : Duration
  timing : Timing
  delay? : Option Duration
  deriving Inhabited

namespace Transition

/-- The document form. -/
def encode (transition : Transition) : Wire :=
  .object
    ([("duration", transition.duration.encode),
      ("timingFunction", transition.timing.encode)] ++
      (match transition.delay? with
       | some delay => [("delay", delay.encode)]
       | none => []))

/-- Reads the document form; the easing is `ease` when it is left out. -/
def decode (data : Wire) : Except Fault Transition := do
  let delay ← data.getD "delay" .null
  let durationData ← data.require "duration"
  let duration ← Duration.decode durationData
  let timingData ← data.getD "timingFunction" (.str "ease")
  let timing ← Timing.decode timingData
  let delay? ← Duration.decodeOptional delay
  return ⟨duration, timing, delay?⟩

/-- The written form. -/
def text (transition : Transition) : Except Fault String := do
  let duration ← transition.duration.text
  let timing ← transition.timing.text
  match transition.delay? with
  | none => return joinWith " " [duration, timing]
  | some delay => do
      let delay ← delay.text
      return joinWith " " [duration, timing, delay]

/--
What has been found while reading words: the first easing keyword
and all time spans.
-/
structure Found where
  timing? : Option Timing
  durations : List Duration

/-- Takes one word into account. -/
def Found.addWord (found : Found) (word : List Char) : Found :=
  if Timing.keywords.contains (String.ofList word) && found.timing?.isNone then
    { found with timing? := some (.keyword (String.ofList word)) }
  else if Duration.isExplicit word then
    match Duration.ofChars? word with
    | some duration => { found with durations := found.durations ++ [duration] }
    | none => found
  else found

/--
Reads a duration, an easing and a delay in any order; the first time span is
the duration.  Other words, such as the name of a property, are passed over.
-/
def parse (text : String) : Option Transition :=
  let split := takeCurve (trimChars text.toList)
  let found :=
    (words split.rest).foldl Found.addWord ⟨split.curve?.map Timing.curve, []⟩
  match found.durations with
  | [] => none
  | [duration] => some ⟨duration, found.timing?.getD (.keyword "ease"), none⟩
  | duration :: delay :: _ =>
      some ⟨duration, found.timing?.getD (.keyword "ease"), some delay⟩

end Transition

end DesignTokens
