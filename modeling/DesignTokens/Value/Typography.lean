import DesignTokens.Value.Dimension
import DesignTokens.Value.Font
import DesignTokens.Value.Pairs

namespace DesignTokens

/-!
# Typography

A text style: a font stack with size, weight, line height and letter spacing.
It is written as a `Font(…)` constructor and rendered as declarations.
-/

open DesignTokens.Text (joinWith)

/-- A line height, relative to the font size or absolute. -/
inductive LineHeight where
  | ratio (value : Wire)
  | length (value : Dimension)
  deriving Inhabited

namespace LineHeight

/-- The document form. -/
def encode : LineHeight → Wire
  | .ratio value => value
  | .length value => value.encode

/-- Reads the document form; an object is a length. -/
def decode (data : Wire) : Except Fault LineHeight :=
  if data.isObject then (Dimension.decode data).map LineHeight.length
  else .ok (.ratio data)

/-- The ratio with six digits, or nothing yet for a length. -/
def ratioText : LineHeight → Except Fault (Option String)
  | .ratio value => value.generalText.map some
  | .length _ => .ok none

/-- The length as written. -/
def lengthText : LineHeight → Except Fault String
  | .ratio _ => .ok ""
  | .length value => value.text

end LineHeight

/-- A text style. -/
structure Typography where
  fontFamily : List Wire
  fontSize : Dimension
  fontWeight : Wire
  lineHeight : LineHeight
  letterSpacing? : Option Dimension
  deriving Inhabited

namespace Typography

/-- The document form; letter spacing is left out when there is none. -/
def encode (style : Typography) : Wire :=
  .object
    ([ ("fontFamily", .list style.fontFamily),
       ("fontSize", style.fontSize.encode),
       ("fontWeight", style.fontWeight),
       ("lineHeight", style.lineHeight.encode) ] ++
      (match style.letterSpacing? with
       | some spacing => [("letterSpacing", spacing.encode)]
       | none => []))

/-- A font stack from a document; a single text is a stack of one family. -/
def decodeFamily (data : Wire) : Except Fault (List Wire) :=
  match data with
  | .str _ => .ok [data]
  | other => other.parts

/-- Reads an optional length; anything that counts as empty means there is none. -/
def decodeOptionalLength (data : Wire) : Except Fault (Option Dimension) :=
  if data.isTruthy then (Dimension.decode data).map some else .ok none

/-- Reads the document form; everything but the size may be left out. -/
def decode (data : Wire) : Except Fault Typography := do
  let family ← data.getD "fontFamily" (.texts ["sans-serif"])
  let lineHeightData ← data.getD "lineHeight" (.float 1.5)
  let lineHeight ← LineHeight.decode lineHeightData
  let spacing ← data.getD "letterSpacing" .null
  let names ← decodeFamily family
  let sizeData ← data.require "fontSize"
  let size ← Dimension.decode sizeData
  let weight ← data.getD "fontWeight" (.int 400)
  let letterSpacing ← decodeOptionalLength spacing
  return ⟨names, size, weight, lineHeight, letterSpacing⟩

/-- A part that must be a number when it is there; `none` when it is a text. -/
def lengthOf? (name : String) (pairs : List (String × PairValue)) :
    Option (Option Float) :=
  match Wire.lookup? name pairs with
  | none => some none
  | some (.number value) => some (some value)
  | some (.text _) => none

/-- The weight among the named parts, the normal weight when there is none. -/
def weightOf (pairs : List (String × PairValue)) : Except Fault (Option Nat) :=
  match Wire.lookup? "weight" pairs with
  | none => .ok (some 400)
  | some value => FontWeight.parse value.encode

/-- The font stack among the named parts. -/
def familyOf (pairs : List (String × PairValue)) : List Wire :=
  match Wire.lookup? "family" pairs with
  | none => [.str "sans-serif"]
  | some value => [.str value.encode.display]

/-- The parts of a text style that must be numbers when they are there. -/
structure Lengths where
  size : Option Float
  lineHeight : Option Float
  letterSpacing : Option Float

/-- The lengths among the named parts; `none` when one of them is a text. -/
def lengthsOf? (pairs : List (String × PairValue)) : Option Lengths := do
  let size ← lengthOf? "size" pairs
  let lineHeight ← lengthOf? "lineHeight" pairs
  let letterSpacing ← lengthOf? "letterSpacing" pairs
  return ⟨size, lineHeight, letterSpacing⟩

/--
A text style of named parts; missing ones are sans-serif, 16px and a
line height of 1.5.
-/
def ofParts (pairs : List (String × PairValue)) (lengths : Lengths) (weight : Nat) :
    Typography where
  fontFamily := familyOf pairs
  fontSize := Dimension.px (lengths.size.getD 16.0)
  fontWeight := .int (Int.ofNat weight)
  lineHeight :=
    match lengths.lineHeight with
    | some value => .length (Dimension.px value)
    | none => .ratio (.float 1.5)
  letterSpacing? := lengths.letterSpacing.map Dimension.px

/--
Reads a `Font(…)` constructor.  A size, line height or letter spacing that is no
number, and a weight that is none, make the text unreadable; the weight is only
read when the lengths are.
-/
def parse (raw : String) : Except Fault (Option Typography) :=
  match constructorBody? raw "Font" with
  | none => .ok none
  | some body =>
      let pairs := parsePairs body
      match lengthsOf? pairs with
      | none => .ok none
      | some lengths =>
          (weightOf pairs).map (fun weight? => weight?.map (ofParts pairs lengths))

/-- The declarations of a text style, in order. -/
def declarations (style : Typography) : Except Fault (List String) := do
  let ratio? ← style.lineHeight.ratioText
  let family ← FontFamily.format style.fontFamily
  let size ← style.fontSize.text
  let weight := style.fontWeight.display
  let lineHeight ←
    match ratio? with
    | some ratio => pure ratio
    | none => style.lineHeight.lengthText
  let spacing ←
    match style.letterSpacing? with
    | some spacing => do
        let text ← spacing.text
        pure ["letter-spacing: " ++ text]
    | none => pure []
  return ["font-family: " ++ family, "font-size: " ++ size,
    "font-weight: " ++ weight, "line-height: " ++ lineHeight] ++ spacing

end Typography

end DesignTokens
