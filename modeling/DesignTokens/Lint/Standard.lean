import DesignTokens.Lint.Rules.Modes
import DesignTokens.Lint.Rules.Relations
import DesignTokens.Lint.Rules.Structure
import DesignTokens.Lint.Rules.Values

namespace DesignTokens.Lint

/-!
# Standard rules

The rules that a linter runs unless it is given others, in the order in which
they run.
-/

/-- The rules of this library. -/
def standardRules : List Rule :=
  [ inconsistentNaming,
    invalidTokenName,
    deepNesting,
    emptyCollection,
    missingDescription,
    invalidColorValue,
    invalidDimensionValue,
    invalidDurationValue,
    invalidFontWeight,
    invalidTypographyValue,
    invalidShadowValue,
    invalidGradientValue,
    invalidBorderValue,
    invalidCubicBezier,
    brokenReference,
    circularReference,
    duplicateValues,
    modeConsistency,
    missingDefaultMode,
    hiddenFromPublishing ]

end DesignTokens.Lint
