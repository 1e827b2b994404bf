import DesignTokens.Log.Level
import DesignTokens.Number.Layout
import DesignTokens.Text.Split
import DesignTokens.Wire.Display

namespace DesignTokens

/-!
# Notes

Small decisions that a run takes without troubling anybody: a value kept as
text, an entry left out, a file found.  Notes are worked out from the same
inputs as the results and never change one.
-/

open DesignTokens.Text

/-- A decision taken during a run. -/
inductive Note where
  /-- The format of a source was worked out from its file. -/
  | detectedFormat (format : String) (path : String)
  /-- A declaration whose value could not be read as what it looks like. -/
  | keptAsText (tag : String) (name : String)
  /-- A declaration whose name is used up by the prefix that is dropped. -/
  | emptyPath (name : String)
  /-- How many declarations a style sheet has. -/
  | countedDeclarations (light dark : Nat)
  /-- A token gave way to a group. -/
  | replacedToken (segment : String)
  /-- A composite value under a path could not be read. -/
  | unreadableEntry (tag : String) (path : String)
  /-- A composite value of a variable could not be read. -/
  | unreadableVariable (tag : String) (name : String)
  /-- An alias of a variable that is not there. -/
  | unknownAlias (id : Wire)
  | unnamedVariable (key : String)
  | unnamedCollection (key : String)
  | collectionWithoutModes (name : String)
  | foundConfig (path : String)
  | noConfig
  /-- References lead in a circle. -/
  | foundCycle (cycle : List String)
  /-- A lint rule could not finish. -/
  | failedRule (id : String) (reason : String)
  /-- A lint rule took the place of another one of the same name. -/
  | replacedRule (id : String)

namespace Note

/-- A failed rule is worth a warning, everything else is for those who debug. -/
def level : Note → Log.Level
  | .failedRule _ _ => .warning
  | _ => .debug

/-- The sentence of a note. -/
def text : Note → String
  | .detectedFormat format path =>
      "Detected " ++ format ++ " source format for " ++ path
  | .keptAsText tag name =>
      "Keeping " ++ tag ++ " value of --" ++ name ++ " as a string"
  | .emptyPath name => "Skipping --" ++ name ++ ": empty path after prefix"
  | .countedDeclarations light dark =>
      "Parsed " ++ Number.intText light ++ " light and " ++ Number.intText dark ++
        " dark variables"
  | .replacedToken segment => "Replacing token at " ++ segment ++ " with a group"
  | .unreadableEntry tag path => "Skipping unparseable " ++ tag ++ " token " ++ path
  | .unreadableVariable tag name =>
      "Skipping unparseable " ++ tag ++ " variable " ++ name
  | .unknownAlias id => "Alias " ++ id.display ++ " points at an unknown variable"
  | .unnamedVariable key => "Skipping variable " ++ key ++ " without a name"
  | .unnamedCollection key => "Skipping collection " ++ key ++ " without a name"
  | .collectionWithoutModes name =>
      "Skipping collection " ++ name ++ " without modes"
  | .foundConfig path => "Found lint config " ++ path
  | .noConfig => "No lint config found, using the recommended preset"
  | .foundCycle cycle =>
      "Found reference cycle " ++ joinWith " -> " (cycle ++ cycle.head?.toList)
  | .failedRule id reason => "Lint rule " ++ id ++ " failed: " ++ reason
  | .replacedRule id => "Replacing lint rule " ++ id

/-- The line of a note in a log. -/
def line (note : Note) : String :=
  note.level.name ++ " | " ++ note.text

end Note

end DesignTokens
