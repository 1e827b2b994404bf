import DesignTokens.Source.Format
import DesignTokens.Theme.Codec
import DesignTokens.Wire.Reader

namespace DesignTokens

/-!
# Sources and themes in files

The format of a source is told by its file unless it is given.  Whatever is
wrong with a file is a problem of the format that it was read as.
-/

open DesignTokens.Text

/-- What came out of a file, and what happened on the way. -/
structure Loaded where
  notes : List Note
  theme : Except Failure Theme

namespace Loaded

/-- A file that cannot be used. -/
def failed (problem : Problem) : Loaded :=
  ⟨[], .error (.problem problem)⟩

end Loaded

/--
The problem of a file that cannot be read as a format.  In full, the message has
a colon behind the path and then the reason, in the words of the library that
reads documents.  These words are not modelled: the message ends with the path.
-/
def unreadable (sourceName : String) (path : FilePath) : Problem :=
  .invalidSource sourceName ["Cannot read " ++ path.text]

namespace SourceFormat

/--
The document in a file, where its suffix says that it holds one; null
for other files.
-/
def documentIn (tree : FileTree) (path : FilePath) : Except Problem Wire :=
  if lower path.suffix = ".json" then
    match tree.read? path with
    | some text =>
        match Wire.parse? text with
        | some data => .ok data
        | none => .error (unreadable "json" path)
    | none => .ok .null
  else .ok .null

/-- Reads a source of a format from a file. -/
def readSource (format : SourceFormat) (tree : FileTree) (path : FilePath) :
    Except Problem Wire :=
  if !tree.isThere path then .error (.sourceNotFound path.text)
  else
    match format, tree.read? path with
    | .css, some text =>
        .ok (.object [("css", .str text), ("fileName", .str path.stem)])
    | format, some text =>
        match Wire.parse? text with
        | some data => .ok data
        | none => .error (unreadable format.sourceName path)
    | format, none => .error (unreadable format.sourceName path)

/-- Options that name a theme. -/
def nameOptions : Option String → Wire
  | some name => .object [("theme_name", .str name), ("file_name", .str name)]
  | none => .null

/-- Loads the theme of a source in a known format. -/
def load
    (format : SourceFormat)
    (registry : Registry)
    (tree : FileTree)
    (path : FilePath)
    (name? : Option String) : Loaded :=
  match format.readSource tree path with
  | .error problem => .failed problem
  | .ok source =>
      ⟨format.notes registry source (nameOptions name?),
        format.parse registry source (nameOptions name?)⟩

/--
Loads the theme of a source, whose format is told by the file
unless it is given.
-/
def loadAny (format? : Option SourceFormat) (registry : Registry) (tree : FileTree)
    (path : FilePath) (name? : Option String) : Loaded :=
  match format? with
  | some format => format.load registry tree path name?
  | none =>
      match documentIn tree path with
      | .error problem => .failed problem
      | .ok data =>
          let format := detect path data
          let loaded := format.load registry tree path name?
          { loaded with
            notes := .detectedFormat format.name path.text :: loaded.notes }

end SourceFormat

namespace Theme

/-- Whether a fault means that a file does not hold a theme. -/
def isFileFault : Fault → Bool
  | .missingKey _ => true
  | .wrongKind _ => true
  | .badValue _ => true
  | _ => false

/-- The failure of reading a theme from a file. -/
def fileFailure (path : FilePath) : Failure → Failure
  | .problem problem => .problem problem
  | .fault fault =>
      if isFileFault fault then .problem (unreadable "theme" path) else .fault fault

/-- The theme that a text writes down. -/
def ofText (registry : Registry) (path : FilePath) (text : String) :
    Except Failure Theme :=
  match Wire.parse? text with
  | none => .error (.problem (unreadable "theme" path))
  | some data =>
      match Theme.decode registry data with
      | .ok theme => .ok theme
      | .error failure => .error (fileFailure path failure)

end Theme

end DesignTokens
