import DesignTokens.Note
import DesignTokens.Registry.Basic
import DesignTokens.Source.Basic
import DesignTokens.Source.Stylesheet.Extraction
import DesignTokens.Source.Stylesheet.Naming
import DesignTokens.Theme.Tree

namespace DesignTokens.Stylesheet

/-!
# Style sheets

A style sheet becomes a theme with one collection: the default mode holds the
light declarations, and a dark mode exists when there are dark ones.  A value
that is nothing but a reference to a custom property becomes a reference.
-/

open DesignTokens.Text

/-- The name of the format in findings. -/
def sourceName : String := "css"

/-- The text of a source, which may stand alone or in an object. -/
def cssOf (source : Wire) : Wire :=
  match source with
  | .obj members => (Wire.lookup? "css" members).getD .null
  | other => other

/-- Everything that speaks against a source. -/
def reasons (source : Wire) : List String :=
  match cssOf source with
  | .null => ["CSS content is required"]
  | .str css => if trim css = "" then ["CSS content is empty"] else []
  | _ => ["CSS content must be a string"]

/-- Names and kinds of blocks that a reader can choose. -/
structure Options where
  collectionName : Wire
  defaultMode : Label
  /-- The start that all names share and that paths leave out. -/
  sharedStart : Wire
  kinds : Kinds
  fileName : Wire

/-- Reads options. -/
def Options.decode (data : Wire) : Except Fault Options := do
  let collectionName ← optionOf data ["collection_name", "collectionName"]
    (.str "tokens")
  let defaultMode ← optionOf data ["default_mode", "defaultMode"] (.str "default")
  let sharedStart ← optionOf data ["strip_prefix", "stripPrefix"] .null
  let themeBlocks ← optionOf data ["parse_theme_block", "parseTailwindTheme"]
    (.bool true)
  let rootBlocks ← optionOf data ["parse_root", "parseRootVariables"] (.bool true)
  let darkBlocks ← optionOf data ["parse_dark_mode", "parseDarkMode"] (.bool true)
  let fileName ← optionOf data ["file_name", "fileName"] .null
  return {
    collectionName := collectionName
    defaultMode := defaultMode
    sharedStart := sharedStart
    kinds := ⟨themeBlocks.isTruthy, rootBlocks.isTruthy, darkBlocks.isTruthy⟩
    fileName := fileName }

/-- The start that all names share, as a text. -/
def Options.start (options : Options) : Except Fault String :=
  match options.sharedStart with
  | .str text => .ok text
  | other =>
      if other.isTruthy then .error (.noMember other.kind "lstrip") else .ok ""

/-- The mode of the dark declarations. -/
def darkMode : String := "dark"

/-- What a declaration is read as. -/
structure Reading where
  declaration : Declaration
  /-- The type that the value looks like. -/
  tag : String
  path : TokenPath
  token : Token

namespace Reading

/-- Whether the declaration gives a token: its path is not empty. -/
def isPlaced (reading : Reading) : Bool :=
  !reading.path.isEmpty

/-- The token with its path. -/
def entry (reading : Reading) : TokenPath × Token :=
  (reading.path, reading.token)

/-- Whether the declaration belongs to the dark scheme. -/
def isDark (reading : Reading) : Bool :=
  reading.declaration.context.isDark

/-- Whether the value could not be read as what it looks like. -/
def isKeptAsText (reading : Reading) : Bool :=
  !reading.token.type.isText reading.tag

/-- What happens while the declaration is read. -/
def notes (reading : Reading) : List Note :=
  (if reading.isKeptAsText then [.keptAsText reading.tag reading.declaration.name]
  else []) ++
    (if reading.isPlaced then [] else [.emptyPath reading.declaration.name])

end Reading

/-- Reads one declaration, given the types of all names. -/
def read (registry : Registry) (types : List (String × String)) (start : String)
    (declaration : Declaration) : Except Failure Reading := do
  let path := pathOf start declaration.name
  match variableOf? declaration.value with
  | some target =>
      let tag := (Wire.lookup? target types).getD "string"
      let reference := Reference.ofText (TokenPath.key (pathOf start target))
      return ⟨declaration, tag, path, Token.plain tag (.reference reference)⟩
  | none => do
      let tag ← typeOf declaration.name declaration.value
      let handler ← registry.get (.str tag)
      match ← handler.parseCompact declaration.value with
      | some value => return ⟨declaration, tag, path, Token.plain tag value⟩
      | none =>
          return ⟨declaration, tag, path,
            Token.plain "string" (.plain (.str declaration.value))⟩

/-- Reads declarations in order. -/
def readAll (registry : Registry) (options : Options)
    (declarations : List Declaration) :
    Except Failure (List Reading) := do
  let types ← typesByName (declarations.map (fun one => (one.name, one.value)))
  let start ← if declarations.isEmpty then pure "" else Failure.lift options.start
  declarations.mapM (read registry types start)

/-- The entries of one scheme. -/
def entriesOf (dark : Bool) (readings : List Reading) : Entries :=
  (readings.filter (fun reading => reading.isPlaced && reading.isDark == dark)).map
    Reading.entry

/--
The entries of the modes; dark ones take the place of a default mode
of the same name.
-/
def modesOf (options : Options) (readings : List Reading) :
    List (Label × Entries) :=
  let light := (options.defaultMode, entriesOf false readings)
  let dark := ((.str darkMode : Label), entriesOf true readings)
  if dark.2.isEmpty then [light]
  else if options.defaultMode.same (.str darkMode) then
    [(options.defaultMode, dark.2)]
  else [light, dark]

/-- The collection of some readings. -/
def collectionOf (options : Options) (readings : List Reading) :
    Except Fault Collection :=
  Collection.build options.collectionName (modesOf options readings)
    options.defaultMode .null

/-- The options of a source: those given, or those that the source brings along. -/
def optionsOf (source options : Wire) : Wire :=
  match options with
  | .null =>
      match source with
      | .obj members => (Wire.lookup? "options" members).getD .null
      | _ => .null
  | given => given

/-- The text of a source that was let through. -/
def textOf (source : Wire) : String :=
  match cssOf source with
  | .str css => css
  | _ => ""

/-- Parses a source. -/
def parse (registry : Registry) (source options : Wire) : Except Failure Theme := do
  accept sourceName (reasons source)
  let options ← Options.decode (optionsOf source options)
  let readings ← readAll registry options (extract options.kinds (textOf source))
  let collection ← collectionOf options readings
  let fileName :=
    match source with
    | .obj members => (Wire.lookup? "fileName" members).getD .null
    | _ => .null
  return {
    name := orElse options.fileName (orElse fileName (.str "CSS Theme"))
    collections := [collection]
    provenance? := some (Provenance.ofSource "css")
    description := .str "Design tokens parsed from CSS" }

/-- The segments of tokens that give way to groups, mode by mode. -/
def replacements (options : Options) (readings : List Reading) : List String :=
  (modesOf options readings).flatMap (fun mode => Group.replacements mode.2)

/-- What happens on the way to the theme of a source. -/
def notes (registry : Registry) (source options : Wire) : List Note :=
  match Options.decode (optionsOf source options) with
  | .error _ => []
  | .ok options =>
      match readAll registry options (extract options.kinds (textOf source)) with
      | .error _ => []
      | .ok readings =>
          readings.flatMap Reading.notes ++
            [ .countedDeclarations (entriesOf false readings).length
                (entriesOf true readings).length ] ++
            (replacements options readings).map Note.replacedToken

end DesignTokens.Stylesheet
