import DesignTokens.Files
import DesignTokens.Source.Stylesheet
import DesignTokens.Source.VariableExport

namespace DesignTokens

/-!
# Source formats

The formats that a theme can be parsed from.
-/

open DesignTokens.Text

/-- A format of sources. -/
inductive SourceFormat where
  | css
  | compact
  | native
  deriving Repr, DecidableEq

namespace SourceFormat

/-- Every format. -/
def all : List SourceFormat := [.css, .compact, .native]

/-- The name by which a format is chosen. -/
def name : SourceFormat → String
  | .css => "css"
  | .compact => "compact"
  | .native => "native"

/-- The name of a format in findings. -/
def sourceName : SourceFormat → String
  | .css => Stylesheet.sourceName
  | .compact => CompactExport.sourceName
  | .native => VariableExport.sourceName

/-- The format of a name. -/
def ofName? (name : String) : Option SourceFormat :=
  all.find? (fun format => format.name == name)

/-- Everything that speaks against a source. -/
def reasons (format : SourceFormat) (source : Wire) : List String :=
  match format with
  | .css => Stylesheet.reasons source
  | .compact => CompactExport.reasons source
  | .native => VariableExport.reasons source

/-- Parses a source. -/
def parse (format : SourceFormat) (registry : Registry) (source options : Wire) :
    Except Failure Theme :=
  match format with
  | .css => Stylesheet.parse registry source options
  | .compact => CompactExport.parse registry source options
  | .native => VariableExport.parse registry source options

/-- What happens on the way to the theme of a source. -/
def notes (format : SourceFormat) (registry : Registry) (source options : Wire) :
    List Note :=
  if !(format.reasons source).isEmpty then []
  else
    match format with
    | .css => Stylesheet.notes registry source options
    | .compact => CompactExport.notes registry source
    | .native => VariableExport.notes registry source

/-- Whether a document is an object of texts. -/
def isTextTable (data : Wire) : Bool :=
  match data with
  | .obj members =>
      !members.isEmpty && members.all fun member =>
        match member.2 with
        | .str _ => true
        | _ => false
  | _ => false

/-- The format that a file suggests by its suffix, or by what it holds. -/
def detect (path : FilePath) (data : Wire) : SourceFormat :=
  if [".css", ".scss", ".pcss"].contains (lower path.suffix) then .css
  else if isTextTable data then .compact
  else .native

end SourceFormat

end DesignTokens
