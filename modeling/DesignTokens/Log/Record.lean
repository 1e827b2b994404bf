import DesignTokens.Log.Template

namespace DesignTokens.Log

/-!
# Log records

A log record as an object, for programs that read logs.  Some pieces of context
are passed on under their own names.
-/

/-- A log record. -/
structure Record where
  level : String
  logger : String
  module : String
  function : Wire
  line : Wire
  message : String
  /-- Context that was given with the record. -/
  context : List (String × Wire)

/-- The names of the context that is passed on, in order. -/
def contextNames : List String :=
  ["token_path", "collection", "rule_id", "source"]

/-- The context of a record that is passed on. -/
def Record.passedOn (record : Record) : List (String × Wire) :=
  contextNames.filterMap fun name =>
    (Wire.lookup? name record.context).map fun value => (name, value)

/-- The document form. -/
def Record.encode (record : Record) : Wire :=
  .object
    ([ ("level", .str record.level),
       ("logger", .str record.logger),
       ("module", .str record.module),
       ("function", record.function),
       ("line", record.line),
       ("message", .str record.message) ] ++ record.passedOn)

end DesignTokens.Log
