import DesignTokens.Wire.Basic

namespace DesignTokens.Lint

/-!
# Lint messages

A message states one finding: the rule that found it, how severe it is, and
where it was found.
-/

/-- How severe a finding is. -/
inductive Severity where
  | error
  | warning
  | info
  deriving Repr, DecidableEq

namespace Severity

/-- Errors come first, then warnings, then remarks. -/
def rank : Severity → Nat
  | .error => 0
  | .warning => 1
  | .info => 2

/-- The name of a severity. -/
def name : Severity → String
  | .error => "error"
  | .warning => "warning"
  | .info => "info"

/-- The severity of a name. -/
def ofName? (name : String) : Option Severity :=
  [error, warning, info].find? (fun severity => severity.name == name)

end Severity

/-- A finding before it is known which rule reports it, and how severely. -/
structure Finding where
  text : String
  /-- The token path that the finding is about. -/
  path? : Option String
  /--
  The collection, or collection and mode, that it was found in; null for none.
  -/
  collection : Wire
  suggestion? : Option String
  /-- A severity of its own, other than that of the rule. -/
  severity? : Option Severity

/-- A finding of a rule. -/
structure Message where
  rule : String
  severity : Severity
  text : String
  path? : Option String
  collection : Wire
  suggestion? : Option String

namespace Message

/-- A member that is left out when there is nothing to tell. -/
def optionalMember (name : String) : Option String → List (String × Wire)
  | some text => [(name, .str text)]
  | none => []

/-- The collection as a member, unless it is absent. -/
def collectionMember : Wire → List (String × Wire)
  | .null => []
  | collection => [("collection", collection)]

/-- The document form. -/
def encode (message : Message) : Wire :=
  .object
    ([ ("rule", .str message.rule),
       ("severity", .str message.severity.name),
       ("message", .str message.text) ] ++
      optionalMember "path" message.path? ++
      collectionMember message.collection ++
      optionalMember "suggestion" message.suggestion?)

/-- Whether a message comes no later than another one. -/
def isNoLater (left right : Message) : Bool :=
  decide (left.severity.rank ≤ right.severity.rank)

end Message

/-- The messages of a run, errors first. -/
structure Result where
  messages : List Message

namespace Result

/-- How many messages have a severity. -/
def count (result : Result) (severity : Severity) : Nat :=
  (result.messages.filter (fun message => message.severity == severity)).length

/-- Whether there are no errors. -/
def passed (result : Result) : Bool :=
  result.count .error == 0

/-- The messages of one rule. -/
def ofRule (result : Result) (rule : String) : List Message :=
  result.messages.filter (fun message => message.rule == rule)

/-- The document form. -/
def encode (result : Result) : Wire :=
  .object
    [ ("messages", .list (result.messages.map Message.encode)),
      ("errorCount", .int (Int.ofNat (result.count .error))),
      ("warningCount", .int (Int.ofNat (result.count .warning))),
      ("infoCount", .int (Int.ofNat (result.count .info))),
      ("passed", .bool result.passed) ]

end Result

end DesignTokens.Lint
