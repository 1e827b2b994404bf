namespace DesignTokens.Log

/-!
# Log levels

How much a log record matters.  A sink takes records of its own level and above.
-/

/-- A level of a log record. -/
inductive Level where
  | all
  | debug
  | info
  | warning
  | error
  | critical
  deriving Repr, DecidableEq

namespace Level

/-- The number of a level; greater ones matter more. -/
def rank : Level → Nat
  | .all => 0
  | .debug => 10
  | .info => 20
  | .warning => 30
  | .error => 40
  | .critical => 50

/-- The name of a level. -/
def name : Level → String
  | .all => "NOTSET"
  | .debug => "DEBUG"
  | .info => "INFO"
  | .warning => "WARNING"
  | .error => "ERROR"
  | .critical => "CRITICAL"

/-- Every name of a level, also the short ones. -/
def names : List (String × Level) :=
  [ ("NOTSET", .all), ("DEBUG", .debug), ("INFO", .info), ("WARN", .warning),
    ("WARNING", .warning), ("ERROR", .error), ("FATAL", .critical),
    ("CRITICAL", .critical) ]

/-- The level of a name. -/
def ofName? (text : String) : Option Level :=
  (names.find? (fun entry => entry.1 == text)).map Prod.snd

/-- Whether a sink of this level takes records of another one. -/
def takes (level other : Level) : Bool :=
  decide (level.rank ≤ other.rank)

end Level

end DesignTokens.Log
