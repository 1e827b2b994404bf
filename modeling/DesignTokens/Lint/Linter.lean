import DesignTokens.Lint.Pattern
import DesignTokens.Lint.Setting
import DesignTokens.Lint.Standard
import DesignTokens.Text.Split

namespace DesignTokens.Lint

/-!
# Linter

A linter runs every rule that its configuration enables and collects what they
find, errors first.  A rule that fails does not end the run: one error about
the rule takes the place of its findings.
-/

open DesignTokens.Text

/--
Rules with distinct identifiers, in the order in which they run, and what
to do with them.
-/
structure Linter where
  rules : List Rule
  config : Config
  registry : Registry

namespace Linter

/-- Puts a rule in the place of the rule of the same identifier, or at the end. -/
def placeRule (rule : Rule) : List Rule → List Rule
  | [] => [rule]
  | other :: rest =>
      if other.id = rule.id then rule :: rest else other :: placeRule rule rest

/-- Adds a rule, in the place of the rule of the same identifier if there is one. -/
def register (linter : Linter) (rule : Rule) : Linter :=
  { linter with rules := placeRule rule linter.rules }

/-- Takes the rule of an identifier out. -/
def unregister (linter : Linter) (id : String) : Linter :=
  { linter with rules := linter.rules.filter (fun rule => rule.id != id) }

/-- The rule of an identifier. -/
def rule? (linter : Linter) (id : String) : Option Rule :=
  linter.rules.find? (fun rule => rule.id == id)

/-- The identifiers of the rules, in the order in which they run. -/
def ids (linter : Linter) : List String :=
  linter.rules.map Rule.id

/-- A linter of some rules, registered one after the other. -/
def ofRules (rules : List Rule) (config : Config) (registry : Registry) : Linter :=
  rules.foldl register ⟨[], config, registry⟩

/-- A linter of the rules of this library. -/
def standard (config : Config) : Linter :=
  ofRules standardRules config Registry.standard

/--
The message of a finding: a configured severity wins over that of the
finding and the rule.
-/
def messageOf (config : Config) (rule : Rule) (finding : Finding) : Message where
  rule := rule.id
  severity :=
    match config.severity? rule.id with
    | some level => level
    | none => finding.severity?.getD rule.defaultSeverity
  text := finding.text
  path? := finding.path?
  collection := finding.collection
  suggestion? := finding.suggestion?

/-- The message about a rule that failed. -/
def failureMessage (rule : Rule) (reason : String) : Message where
  rule := rule.id
  severity := .error
  text := "Rule \"" ++ rule.id ++ "\" threw an error: " ++ reason
  path? := none
  collection := .null
  suggestion? := none

/-- The messages of a rule on a theme. -/
def messagesOf (linter : Linter) (theme : Theme) (rule : Rule) : List Message :=
  let report := rule.check linter.registry theme
  match report.failure? with
  | some reason => [failureMessage rule reason]
  | none => report.findings.map (messageOf linter.config rule)

/-- The rules that run. -/
def enabledRules (linter : Linter) : List Rule :=
  linter.rules.filter (fun rule => linter.config.enables rule.id)

/-- The messages of all rules that run, rule by rule. -/
def reported (linter : Linter) (theme : Theme) : List Message :=
  linter.enabledRules.flatMap (linter.messagesOf theme)

end Linter

namespace Config

/-- Whether a configuration leaves out findings about a path. -/
def ignoresPath (config : Config) (path? : Option String) : Bool :=
  match path? with
  | some path =>
      config.ignorePatterns.any (fun pattern => matchesPattern pattern path)
  | none => false

/-- The name of the collection in a label: the text before the first slash. -/
def collectionName (label : String) : String :=
  (splitText '/' label).headD ""

/-- Whether a configuration leaves out findings about a collection. -/
def ignoresCollection (config : Config) (collection : Wire) : Bool :=
  match collection with
  | .str label => config.ignoreCollections.contains (collectionName label)
  | _ => false

/-- Whether a configuration leaves out a message. -/
def ignores (config : Config) (message : Message) : Bool :=
  config.ignoresPath message.path? || config.ignoresCollection message.collection

/--
The fault of a message whose collection cannot be compared with ignored names.
-/
def messageFault? (config : Config) (message : Message) : Option Fault :=
  if config.ignoresPath message.path? then none
  else
    match message.collection with
    | .null => none
    | .str _ => none
    | other => some (.noMember other.kind "split")

end Config

namespace Linter

/--
The messages of a run that are not left out, errors first, in the
order of reporting.
-/
def lint (linter : Linter) (theme : Theme) : Result where
  messages :=
    ((linter.reported theme).filter
      (fun message => !linter.config.ignores message)).mergeSort
      Message.isNoLater

/-- The fault, if any, that keeps a run from telling which messages to leave out. -/
def fault? (linter : Linter) (theme : Theme) : Option Fault :=
  (linter.reported theme).findSome? linter.config.messageFault?

/-- The result of a run, unless a collection has a name that cannot be compared. -/
def run (linter : Linter) (theme : Theme) : Except Fault Result :=
  match linter.fault? theme with
  | some fault => .error fault
  | none => .ok (linter.lint theme)

/-- The note of a rule that fails. -/
def failureNotes (linter : Linter) (theme : Theme) (rule : Rule) : List Note :=
  match (rule.check linter.registry theme).failure? with
  | some reason => [.failedRule rule.id reason]
  | none => []

/-- What happens during a run. -/
def notes (linter : Linter) (theme : Theme) : List Note :=
  linter.enabledRules.flatMap fun rule =>
    rule.notes theme ++ linter.failureNotes theme rule

end Linter

end DesignTokens.Lint
