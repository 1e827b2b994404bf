import DesignTokens.Lint.Message
import DesignTokens.Note
import DesignTokens.Problem
import DesignTokens.Registry.Basic
import DesignTokens.Theme.Basic

namespace DesignTokens.Lint

/-!
# Lint rules

A rule looks at a theme and reports what it found.  A rule may fail half way;
its report then says why, and the linter decides what becomes of the findings
made before.  Rules are plain records, so a linter can run rules that this
library has never heard of.
-/

/-- What a rule found, and why it could not finish, if it could not. -/
structure Report where
  findings : List Finding
  failure? : Option String

namespace Report

/-- The report of a rule that finished. -/
def ofFindings (findings : List Finding) : Report :=
  ⟨findings, none⟩

/-- The report of a check that may fail; a failed check reports no findings. -/
def ofOutcome : Except Failure (List Finding) → Report
  | .ok findings => ofFindings findings
  | .error failure => ⟨[], some failure.text⟩

/-- The report of a check that may meet an unusable value. -/
def ofFaulty (outcome : Except Fault (List Finding)) : Report :=
  ofOutcome (Failure.lift outcome)

end Report

/-- A lint rule. -/
structure Rule where
  /-- The identifier, by which configurations refer to the rule. -/
  id : String
  /-- The name for readers. -/
  name : String
  /-- What the rule checks. -/
  description : String
  /-- How severe its findings are unless a configuration says otherwise. -/
  defaultSeverity : Severity
  check : Registry → Theme → Report
  /-- What happens while the rule runs. -/
  notes : Theme → List Note := fun _ => []

/-- The label of a collection and one of its modes. -/
def modeLabel (collection : Wire) (mode : Label) : Wire :=
  .str (collection.display ++ "/" ++ mode.display)

namespace Finding

/-- A finding about one token. -/
def atToken (located : Located) (text : String) (suggestion? : Option String) :
    Finding :=
  ⟨text, some (TokenPath.key located.path),
    modeLabel located.collection.name located.mode, suggestion?, none⟩

/-- A finding about a whole collection. -/
def atCollection (collection : Collection) (text : String) (suggestion : String) :
    Finding :=
  ⟨text, none, collection.name, some suggestion, none⟩

end Finding

end DesignTokens.Lint
