import DesignTokens.Text.Digit
import DesignTokens.Value.Dimension
import DesignTokens.Value.Gradient
import DesignTokens.Value.Timing

namespace DesignTokens

/-!
# Animations and keyframes

The shorthand that starts an animation, and the steps that an animation goes
through.
-/

open DesignTokens.Text

/-- An animation shorthand; null stands for a part that is left out. -/
structure Animation where
  name : Wire
  duration : Duration
  timing? : Option Timing
  delay? : Option Duration
  iterationCount : Wire
  direction : Wire
  fillMode : Wire
  playState : Wire
  deriving Inhabited

namespace Animation

/-- The directions. -/
def directions : List String :=
  ["normal", "reverse", "alternate", "alternate-reverse"]

/-- What holds before and after the animation runs. -/
def fillModes : List String := ["none", "forwards", "backwards", "both"]

/-- Whether the animation runs. -/
def playStates : List String := ["running", "paused"]

/-- The document form; parts that are not there are left out. -/
def encode (animation : Animation) : Wire :=
  .object
    ([ ("name", animation.name), ("duration", animation.duration.encode) ] ++
      (match animation.timing? with
       | some timing => [("timingFunction", timing.encode)]
       | none => []) ++
      (match animation.delay? with
       | some delay => [("delay", delay.encode)]
       | none => []) ++
      Gradient.optionalMember "iterationCount" animation.iterationCount ++
      Gradient.optionalMember "direction" animation.direction ++
      Gradient.optionalMember "fillMode" animation.fillMode ++
      Gradient.optionalMember "playState" animation.playState)

/-- Reads an optional easing; anything that counts as empty means there is none. -/
def decodeTiming (data : Wire) : Except Fault (Option Timing) :=
  if data.isTruthy then (Timing.decode data).map some else .ok none

/-- Reads the document form. -/
def decode (data : Wire) : Except Fault Animation := do
  let timingData ← data.getD "timingFunction" .null
  let delayData ← data.getD "delay" .null
  let name ← data.require "name"
  let durationData ← data.require "duration"
  let duration ← Duration.decode durationData
  let timing ← decodeTiming timingData
  let delay ← Duration.decodeOptional delayData
  let iterationCount ← data.getD "iterationCount" .null
  let direction ← data.getD "direction" .null
  let fillMode ← data.getD "fillMode" .null
  let playState ← data.getD "playState" .null
  return ⟨name, duration, timing, delay, iterationCount, direction, fillMode,
    playState⟩

/-- A part that must be a text. -/
def wordOf (data : Wire) : Except Fault String :=
  match data with
  | .str text => .ok text
  | other => .error (.wrongKind ("a word is required, not '" ++ other.kind ++ "'"))

/-- The parts that are there. -/
def present (parts : List Wire) : List Wire :=
  parts.filter (fun part => match part with | .null => false | _ => true)

/-- The written form, the parts in a fixed order. -/
def text (animation : Animation) : Except Fault String := do
  let duration ← animation.duration.text
  let timing ←
    match animation.timing? with
    | some timing => (timing.text).map (fun text => [text])
    | none => pure []
  let delay ←
    match animation.delay? with
    | some delay => (delay.text).map (fun text => [text])
    | none => pure []
  let count := (present [animation.iterationCount]).map Wire.display
  let name ← wordOf animation.name
  let words ←
    (present [animation.direction, animation.fillMode, animation.playState]).mapM
      wordOf
  return joinWith " " ([name, duration] ++ timing ++ delay ++ count ++ words)

/-- What has been found while reading words. -/
structure Found where
  name : String
  durations : List Duration
  timing? : Option Timing
  iterationCount : Wire
  direction : Wire
  fillMode : Wire
  playState : Wire

/--
Takes one word into account; a word that fits nowhere is the name, if it is the
first such word.
-/
def Found.addWord (found : Found) (chars : List Char) : Except Fault Found :=
  let word := String.ofList chars
  if Duration.isExplicit chars then
    match Duration.ofChars? chars with
    | some duration => .ok { found with durations := found.durations ++ [duration] }
    | none => .ok found
  else if Timing.keywords.contains word && found.timing?.isNone then
    .ok { found with timing? := some (.keyword word) }
  else if word = "infinite" then .ok { found with iterationCount := .str word }
  else if allDigitLike chars then
    match Number.readInt? word with
    | some count => .ok { found with iterationCount := .int count }
    | none => .error (.badValue ("'" ++ word ++ "' is no whole number"))
  else if directions.contains word then .ok { found with direction := .str word }
  else if fillModes.contains word then .ok { found with fillMode := .str word }
  else if playStates.contains word then .ok { found with playState := .str word }
  else if found.name = "" then .ok { found with name := word }
  else .ok found

/--
Reads an animation shorthand; the first time span is the duration and the
second the delay.
-/
def parse (raw : String) : Except Fault (Option Animation) := do
  let split := takeCurve (trimChars raw.toList)
  let start : Found :=
    ⟨"", [], split.curve?.map Timing.curve, .null, .null, .null, .null⟩
  let found ← (words split.rest).foldlM Found.addWord start
  if found.name = "" then return none
  return some {
    name := .str found.name
    duration := found.durations[0]?.getD ⟨.float 0.0, .str "ms"⟩
    timing? := found.timing?
    delay? := found.durations[1]?
    iterationCount := found.iterationCount
    direction := found.direction
    fillMode := found.fillMode
    playState := found.playState }

end Animation

/-- The properties that hold at one keyframe. -/
structure KeyframeStep where
  selector : String
  properties : List (String × Wire)
  deriving Inhabited

/-- The steps of an animation, in order. -/
structure Keyframes where
  steps : List KeyframeStep
  deriving Inhabited

namespace Keyframes

/--
The document form; a selector or property that occurs again keeps its place
and its last value.
-/
def encode (keyframes : Keyframes) : Wire :=
  .object
    (Wire.ofMembers
      (keyframes.steps.map
        (fun step => (step.selector, .obj (Wire.ofMembers step.properties)))))

/-- The members of an object; other kinds have no members to list. -/
def membersOf (data : Wire) : Except Fault (List (String × Wire)) :=
  match data with
  | .obj members => .ok members
  | other => .error (.noMember other.kind "items")

/-- Reads the document form. -/
def decode (data : Wire) : Except Fault Keyframes := do
  let members ← membersOf data
  let steps ← members.mapM fun member => do
    let properties ← membersOf member.2
    return KeyframeStep.mk member.1 properties
  return ⟨steps⟩

/-- One step as written. -/
def stepText (step : KeyframeStep) : String :=
  step.selector ++ " \x7b " ++
    joinWith "; "
      (step.properties.map
        (fun property => property.1 ++ ": " ++ property.2.shortText)) ++
    " \x7d"

/-- The steps as written. -/
def text (keyframes : Keyframes) : String :=
  joinWith " " (keyframes.steps.map stepText)

/--
Names and values from alternating words; a last name without a
value is left out.
-/
def propertiesOf : List (List Char) → List (String × Wire)
  | name :: value :: rest =>
      let value :=
        match bareNumber? (String.ofList value) with
        | some number => .float number
        | none => .str (String.ofList value)
      (String.ofList name, value) :: propertiesOf rest
  | _ => []

/-- Reads one step, a selector and its properties after a colon. -/
def parseStep? (piece : List Char) : Option KeyframeStep :=
  let piece := trimChars piece
  match piece.dropWhile (· != ':') with
  | ':' :: rest =>
      let properties := propertiesOf (words rest)
      if properties.isEmpty then none
      else some ⟨String.ofList (trimChars (piece.takeWhile (· != ':'))), properties⟩
  | _ => none

/-- Reads steps between semicolons, such as `from: opacity 0; to: opacity 1`. -/
def parse (raw : String) : Option Keyframes :=
  match (splitOn ';' raw.toList).filterMap parseStep? with
  | [] => none
  | steps => some ⟨steps⟩

end Keyframes

end DesignTokens
