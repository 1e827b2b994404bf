import DesignTokens.Files
import DesignTokens.Log.Level
import DesignTokens.Note

namespace DesignTokens.Log

/-!
# Log setup

Where log records go: to the console, unless it has to be quiet, and to a file
if one is named.  The file takes everything and is cut into pieces of a
limited size.
-/

/-- How a sink writes a record. -/
inductive Layout where
  | line
  | json
  deriving Repr, DecidableEq

/-- Where a sink writes to. -/
inductive Target where
  | console
  | file (path : FilePath) (maxBytes backups : Int)
  deriving Repr, DecidableEq

/-- A place that takes log records. -/
structure Sink where
  target : Target
  level : Level
  layout : Layout
  deriving Repr, DecidableEq

/-- What is asked of the log. -/
structure Setup where
  level : String
  quiet : Bool
  verbose : Bool
  file? : Option FilePath
  layout : Layout
  backups : Int
  maxBytes : Int

namespace Setup

/-- A log of remarks on the console. -/
def standard : Setup where
  level := "INFO"
  quiet := false
  verbose := false
  file? := none
  layout := .line
  backups := 3
  maxBytes := 10485760

/-- The level of the console; names of levels may be written in small letters. -/
def consoleLevel? (setup : Setup) : Option Level :=
  if setup.verbose then some .debug
  else Level.ofName? (setup.level.map Char.toUpper)

/-- The sink on the console, if there is one. -/
def consoleSinks (setup : Setup) : Except Fault (List Sink) :=
  if setup.quiet then .ok []
  else
    match setup.consoleLevel? with
    | some level => .ok [⟨.console, level, .line⟩]
    | none => .error (.badValue "Unable to configure handler 'console'")

/-- The sink in a file, if there is one; its directory has to be there. -/
def fileSinks (setup : Setup) (tree : FileTree) : Except Fault (List Sink) :=
  match setup.file? with
  | none => .ok []
  | some path =>
      match tree.write path "" with
      | .ok _ =>
          .ok [⟨.file path setup.maxBytes setup.backups, .debug, setup.layout⟩]
      | .error _ => .error (.badValue "Unable to configure handler 'file'")

/-- The sinks of a log. -/
def sinks (setup : Setup) (tree : FileTree) : Except Fault (List Sink) := do
  let console ← setup.consoleSinks
  let file ← setup.fileSinks tree
  return console ++ file

end Setup

/--
The lines that a note leaves on the console.  Where there is no sink at all,
warnings are still shown, without their level.
-/
def consoleLines (sinks : List Sink) (note : Note) : List String :=
  if sinks.isEmpty then
    if Level.warning.takes note.level then [note.text] else []
  else
    (sinks.filter fun sink =>
      sink.target == .console && sink.level.takes note.level).map
      fun _ => note.line

end DesignTokens.Log
