import DesignTokens.Lint.Message
import DesignTokens.Wire.Basic

namespace DesignTokens.Lint

/-!
# Settings of a lint run

Which rules run and how severe their findings are, and which findings are left
out.  A rule that is not mentioned runs with its own severity.
-/

/-- What a configuration says about a rule. -/
inductive Setting where
  | enabled
  | disabled
  | severity (level : Severity)
  deriving Repr, DecidableEq

/-- A lint configuration. -/
structure Config where
  /-- Names of presets and paths of files that this configuration builds on. -/
  extended : List String
  /-- What is said about rules, by their identifiers. -/
  rules : List (String × Setting)
  /-- Findings about paths that match one of these patterns are left out. -/
  ignorePatterns : List String
  /-- Findings about collections of these names are left out. -/
  ignoreCollections : List String
  deriving Repr, DecidableEq

namespace Config

/-- Every rule with its own severity, and no finding left out. -/
def empty : Config :=
  ⟨[], [], [], []⟩

/-- What is said about a rule. -/
def setting? (config : Config) (rule : String) : Option Setting :=
  Wire.lookup? rule config.rules

/-- Whether a rule runs. -/
def enables (config : Config) (rule : String) : Bool :=
  config.setting? rule != some .disabled

/-- The severity that is set for a rule. -/
def severity? (config : Config) (rule : String) : Option Severity :=
  match config.setting? rule with
  | some (.severity level) => some level
  | _ => none

/--
What one configuration says after another one; the later one wins, and
ignored names add up.
-/
def merge (base override : Config) : Config where
  extended := []
  rules :=
    override.rules.foldl (fun known rule => Wire.insert rule.1 rule.2 known)
      base.rules
  ignorePatterns := base.ignorePatterns ++ override.ignorePatterns
  ignoreCollections := base.ignoreCollections ++ override.ignoreCollections

end Config

end DesignTokens.Lint
