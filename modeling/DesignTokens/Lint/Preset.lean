import DesignTokens.Lint.Setting
import DesignTokens.Problem

namespace DesignTokens.Lint

/-!
# Presets

Configurations that come with the library.  They agree on what is an error in
any theme and differ in how much they make of everything else.
-/

open DesignTokens.Text (joinWith)

/-- A configuration that comes with the library. -/
inductive Preset where
  | recommended
  | strict
  | minimal
  deriving Repr, DecidableEq

namespace Preset

/-- Every preset. -/
def all : List Preset := [.recommended, .strict, .minimal]

/-- The name by which a preset is chosen. -/
def name : Preset → String
  | .recommended => "recommended"
  | .strict => "strict"
  | .minimal => "minimal"

/-- The names of all presets. -/
def names : List String :=
  all.map name

/-- The preset of a name. -/
def ofName? (text : String) : Option Preset :=
  all.find? (fun preset => preset.name == text)

/-- Rules whose findings make a theme unusable. -/
def grave : List String :=
  [ "invalid-token-name",
    "invalid-color-value",
    "invalid-dimension-value",
    "invalid-duration-value",
    "invalid-font-weight",
    "invalid-typography-value",
    "invalid-shadow-value",
    "invalid-gradient-value",
    "invalid-border-value",
    "invalid-cubic-bezier",
    "broken-reference",
    "circular-reference",
    "missing-default-mode" ]

/-- Rules on style, with what is said about them. -/
def onStyle (structural remark : Setting) : List (String × Setting) :=
  [ ("inconsistent-naming", structural),
    ("deep-nesting", structural),
    ("empty-collection", structural),
    ("missing-description", remark),
    ("duplicate-values", remark),
    ("mode-consistency", structural),
    ("hidden-from-publishing", remark) ]

/-- What a preset says about rules on style. -/
def styleRules : Preset → List (String × Setting)
  | .recommended => onStyle (.severity .warning) (.severity .info)
  | .strict => onStyle (.severity .error) (.severity .warning)
  | .minimal => onStyle .disabled .disabled

/-- The configuration of a preset. -/
def config (preset : Preset) : Config where
  extended := []
  rules := grave.map (fun rule => (rule, .severity .error)) ++ preset.styleRules
  ignorePatterns := []
  ignoreCollections := []

/-- The configuration of the preset of a name. -/
def get (text : String) : Except Problem Config :=
  match ofName? text with
  | some preset => .ok preset.config
  | none =>
      .error (.configuration ("Unknown lint preset: " ++ text) none
        (some ("Available presets: " ++ joinWith ", " names)))

end Preset

end DesignTokens.Lint
