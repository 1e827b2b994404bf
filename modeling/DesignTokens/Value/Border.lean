import DesignTokens.Color.Formats
import DesignTokens.Value.Dimension
import DesignTokens.Value.Shadow

namespace DesignTokens

/-!
# Borders

A border has a width, a line style and a color, written in that order.
-/

open DesignTokens.Text

/-- A border line. -/
structure Border where
  width : Dimension
  style : Wire
  color : Color
  deriving Inhabited

namespace Border

/-- The line styles. -/
def styles : List String :=
  ["solid", "dashed", "dotted", "double", "groove", "ridge", "inset",
    "outset", "none"]

/-- The document form. -/
def encode (border : Border) : Wire :=
  .object
    [("width", border.width.encode), ("style", border.style),
      ("color", border.color.encode)]

/-- Reads the document form; the style is solid when it is left out. -/
def decode (data : Wire) : Except Fault Border := do
  let widthData ← data.require "width"
  let width ← Dimension.decode widthData
  let style ← data.getD "style" (.str "solid")
  let colorData ← data.require "color"
  let color ← Color.decode colorData
  return ⟨width, style, color⟩

/-- The written form. -/
def text (border : Border) : Except Fault String := do
  let width ← border.width.text
  let color ← border.color.toRgb
  return joinWith " " [width, border.style.display, color]

/-- Width and style as written, before they are lowercased. -/
structure Start where
  width : Float
  unit : List Char
  style : List Char

/-- The units that a border width may have. -/
def widthUnits : List String := ["px", "rem", "em"]

/-- Takes a unit, ignoring case; there may be none. -/
def scanUnit (chars : List Char) : List Char × List Char :=
  match widthUnits.findSome? (fun unit => scanWord? unit.toList chars) with
  | some rest => (chars.take (chars.length - rest.length), rest)
  | none => ([], chars)

/-- Takes a style followed by blanks, ignoring case. -/
def scanStyle? (chars : List Char) : Option (List Char × List Char) :=
  styles.findSome? fun style => do
    let rest ← scanWord? style.toList chars
    let after ← Color.scanBlanks? rest
    return (chars.take (chars.length - rest.length), after)

/-- Takes `<width>[<unit>] <style>` and the blanks after it. -/
def scanStart? (chars : List Char) : Option (Start × List Char) := do
  let (width, rest) ← Number.scanUnsigned? chars
  let (unit, rest) := scanUnit rest
  let rest ← Color.scanBlanks? rest
  let (style, rest) ← scanStyle? rest
  return (⟨width.toFloat, unit, style⟩, rest)

/--
Whether a text is a hexadecimal color, a color function or a word, as a whole.
-/
def isColorShape (chars : List Char) : Bool :=
  match chars with
  | '#' :: digits => !digits.isEmpty && digits.all Color.isHexDigit
  | chars =>
      (match Shadow.scanColorFunction? true false chars with
       | some (_, rest) => rest.isEmpty
       | none => false) ||
        (!chars.isEmpty && chars.all isLetterIgnoringCase)

/-- Whether a text starts like a border. -/
def startsLikeBorder (chars : List Char) : Bool :=
  (scanStart? chars).isSome

/-- Reads `<width> <style> <color>`. -/
def parse (raw : String) : Except Fault (Option Border) :=
  match scanStart? (trimChars raw.toList) with
  | none => .ok none
  | some (start, colorText) =>
      if !isColorShape colorText then .ok none
      else do
        let color? ← Color.parse (String.ofList colorText)
        return color?.map fun color =>
          let unit := if start.unit.isEmpty then
            "px" else String.ofList (lowerChars start.unit)
          ⟨Dimension.ofFloat start.width unit,
            .str (String.ofList (lowerChars start.style)), color⟩

end Border

end DesignTokens
