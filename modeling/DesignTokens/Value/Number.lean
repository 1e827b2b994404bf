import DesignTokens.Number.Layout
import DesignTokens.Number.Literal
import DesignTokens.Wire.Display

namespace DesignTokens

/-!
# Numbers inside values

The parts of a value that should be numbers may have been written as anything.
These functions say how such a part is rendered, or why it cannot be.
-/

namespace Wire

/-- The fault of a part that should be a number. -/
def numberFault (value : Wire) : Fault :=
  .wrongKind ("a number is required, not '" ++ value.kind ++ "'")

/-- A part as a double; a text counts when it is a numeral. -/
def toFloat (value : Wire) : Except Fault Float :=
  match value with
  | .str text =>
      match Number.readFloat? text with
      | some number => .ok number
      | none => .error (.badValue ("'" ++ text ++ "' is no numeral"))
  | other =>
      match other.number? with
      | some number => number
      | none => .error other.numberFault

/-- The whole number that a part is, once its double is known to be whole. -/
def wholeText (value : Wire) : Except Fault String :=
  match value with
  | .bool truth => .ok (if truth then "1" else "0")
  | .int whole => .ok (Number.intText whole)
  | .float number => do
      let whole ← Number.truncate number
      return Number.intText whole
  | .str text =>
      match Number.readInt? text with
      | some whole => .ok (Number.intText whole)
      | none => .error (.badValue ("'" ++ text ++ "' is no whole number"))
  | other => .error other.numberFault

/-- A part in at most six significant digits. -/
def generalText (value : Wire) : Except Fault String :=
  match value with
  | .str text =>
      .error (.badValue ("'" ++ text ++ "' cannot be laid out as a number"))
  | other =>
      match other.number? with
      | some number => number.map Number.generalText
      | none => .error other.numberFault

/-- A part as style text shows it: whole numbers in full, others in six digits. -/
def numberText (value : Wire) : Except Fault String := do
  let number ← value.toFloat
  if Number.isWhole number then value.wholeText else value.generalText

/-- A part as text, where a double without fraction loses its point. -/
def shortText (value : Wire) : String :=
  match value with
  | .float number =>
      match Number.isWhole number, Number.truncate number with
      | true, .ok whole => Number.intText whole
      | _, _ => value.display
  | other => other.display

/-- A part times one hundred, with one place after the point. -/
def percentText (value : Wire) : Except Fault String :=
  match value with
  | .str text =>
      .error (.badValue ("'" ++ text ++ "' cannot be laid out as a number"))
  | .float number => .ok (Number.fixedText 1 (number * 100.0))
  | .int whole => (Number.ofInt? (whole * 100)).map (Number.fixedText 1)
  | .bool truth => .ok (if truth then "100.0" else "0.0")
  | other => .error other.numberFault

end Wire

end DesignTokens
