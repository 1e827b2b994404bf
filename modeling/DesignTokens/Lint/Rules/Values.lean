import DesignTokens.Lint.Rule
import DesignTokens.Lint.Validity

namespace DesignTokens.Lint

/-!
# Rules on values

A value rule looks at the tokens of some types and reports every flaw of their
values.  References are left to the rules on references.
-/

open DesignTokens.Text (joinWith)

/--
Which values a value rule looks at, what it calls a flaw, and what it advises.
-/
structure ValueCheck where
  /-- The types of the tokens that are checked. -/
  tags : List String
  flaws : TokenValue → Except Fault (List String)
  suggestion? : Option String

namespace ValueCheck

/-- Whether a token is checked. -/
def applies (check : ValueCheck) (token : Token) : Bool :=
  check.tags.any (fun tag => token.type.isText tag) && !token.value.isReference

/-- The findings about one token. -/
def findingsAt (check : ValueCheck) (located : Located) :
    Except Fault (List Finding) :=
  if check.applies located.token then do
    let flaws ← check.flaws located.token.value
    return flaws.map (fun flaw => Finding.atToken located flaw check.suggestion?)
  else return []

/-- The findings about all tokens of a theme. -/
def findings (check : ValueCheck)
    (theme : Theme) : Except Fault (List Finding) := do
  let found ← theme.walk.mapM check.findingsAt
  return found.flatten

/-- The rule that makes a check; flaws of values are errors. -/
def rule (check : ValueCheck) (id name description : String) : Rule where
  id := id
  name := name
  description := description
  defaultSeverity := .error
  check _ theme := .ofFaulty (check.findings theme)

end ValueCheck

/-- Colors with channels outside their range. -/
def invalidColorValue : Rule :=
  ValueCheck.rule ⟨["color"], colorTokenFlaws, none⟩
    "invalid-color-value" "Invalid Color Value"
    "Checks for color tokens with invalid RGBA values"

/-- Lengths with a bad number or unit. -/
def invalidDimensionValue : Rule :=
  ValueCheck.rule
    ⟨["dimension"], dimensionTokenFlaws,
      some ("Use a finite number with one of: " ++ joinWith ", " Dimension.units)⟩
    "invalid-dimension-value" "Invalid Dimension Value"
    "Checks for dimension tokens with a bad number or unit"

/-- Durations that are negative or of an unknown unit. -/
def invalidDurationValue : Rule :=
  ValueCheck.rule ⟨["duration"], durationTokenFlaws, none⟩
    "invalid-duration-value" "Invalid Duration Value"
    "Checks for negative durations or unknown time units"

/-- Font weights that are no multiples of 100 and no keywords. -/
def invalidFontWeight : Rule :=
  ValueCheck.rule
    ⟨["fontWeight"], fontWeightTokenFlaws,
      some "Use a multiple of 100 between 100 and 900"⟩
    "invalid-font-weight" "Invalid Font Weight"
    "Checks that font weights are 100..900 or a known keyword"

/-- Typography without a family or with bad sizes. -/
def invalidTypographyValue : Rule :=
  ValueCheck.rule ⟨["typography"], typographyTokenFlaws, none⟩
    "invalid-typography-value" "Invalid Typography Value"
    "Checks typography tokens for missing families and bad sizes"

/-- Shadows with bad lengths or colors. -/
def invalidShadowValue : Rule :=
  ValueCheck.rule ⟨["shadow"], shadowTokenFlaws, none⟩
    "invalid-shadow-value" "Invalid Shadow Value"
    "Checks shadow layers for bad offsets, blur and colors"

/-- Gradients with a bad type or bad stops. -/
def invalidGradientValue : Rule :=
  ValueCheck.rule ⟨["gradient"], gradientTokenFlaws, none⟩
    "invalid-gradient-value" "Invalid Gradient Value"
    "Checks gradient type, stop count, stop positions and colors"

/-- Borders with a bad width, style or color. -/
def invalidBorderValue : Rule :=
  ValueCheck.rule ⟨["border"], borderTokenFlaws, none⟩
    "invalid-border-value" "Invalid Border Value"
    "Checks border width, style and color"

/-- Easing curves whose control points leave the unit interval. -/
def invalidCubicBezier : Rule :=
  ValueCheck.rule
    ⟨["cubicBezier", "transition", "animation"], curveTokenFlaws,
      some "Keep the x coordinates of both control points between 0 and 1"⟩
    "invalid-cubic-bezier" "Invalid Cubic Bezier"
    "Checks easing curves, including those inside transitions and animations"

end DesignTokens.Lint
