import DesignTokens.Note
import DesignTokens.Registry.Basic
import DesignTokens.Source.Basic
import DesignTokens.Theme.Tree

namespace DesignTokens.CompactExport

/-!
# Compact exports

A compact export maps paths to texts.  The first segment of a path names a
collection, the last one a token, and everything in between groups; each
collection has a single mode.
-/

open DesignTokens.Text

/-- The name of the format in findings. -/
def sourceName : String := "figma-compact"

/-- The mode of every collection. -/
def defaultMode : String := "Default"

/-- The name of the collection of paths that start with a slash. -/
def unnamedCollection : String := "Variables"

/-- Lowercase words joined with hyphens. -/
def normalizeSegment (segment : String) : String :=
  joinWith "-" ((words (lowerChars (trimChars segment.toList))).map String.ofList)

/-- The trimmed pieces between commas that stand outside parentheses. -/
def splitTopLevel (value : String) : List String :=
  (splitAtDepthZero clampedDepthAfter 0 value.toList).map
    (fun piece => String.ofList (trimChars piece))

/-- Whether a piece is a color, a number, a length or a truth value. -/
def isScalar (piece : String) : Bool :=
  startsWith ['#'] piece.toList || ["true", "false"].contains (lower piece) ||
    Dimension.isWritten piece.toList

/--
The value of the first mode, where a text lists one scalar for each mode;
else the whole text.
-/
def primaryValue (raw : String) : String :=
  let text := trim raw
  if startsWith "Font(".toList text.toList ||
    startsWith "Effect(".toList text.toList then text
  else
    match splitTopLevel text with
    | first :: second :: rest =>
        if (first :: second :: rest).all
          (fun piece => piece != "" && isScalar piece) then first
        else text
    | _ => text

/-- Everything that speaks against a source. -/
def reasons (source : Wire) : List String :=
  match source with
  | .obj [] => ["Variable defs object is empty"]
  | .obj members => members.filterMap fun member =>
      if trim member.1 = "" then
        some ("Invalid variable path: " ++ quotedText member.1)
      else
        match member.2 with
        | .str _ => none
        | _ => some ("Value for " ++ member.1 ++ " must be a string")
  | _ => ["Variable defs must be an object mapping paths to values"]

/-- The name of the theme and the file that it stands for. -/
structure Options where
  themeName : Wire
  fileKey : Wire

/-- Reads options. -/
def Options.decode (data : Wire) : Except Fault Options := do
  let themeName ← optionOf data ["theme_name", "fileName"] (.str "Untitled")
  let fileKey ← optionOf data ["figma_file_key", "fileKey"] .null
  return ⟨themeName, fileKey⟩

/-- The path and text of one entry of a source. -/
structure Entry where
  path : String
  raw : String

namespace Entry

/-- The segments of the path as written. -/
def segments (entry : Entry) : List String :=
  splitText '/' entry.path

/-- The collection that the entry belongs to. -/
def collection (entry : Entry) : String :=
  match entry.segments with
  | first :: _ => if first = "" then unnamedCollection else first
  | [] => unnamedCollection

/-- The path of the token; an empty last segment is replaced by the whole path. -/
def tokenPath (entry : Entry) : TokenPath :=
  let segments := entry.segments
  let last := segments.getLast?.getD ""
  segments.tail.dropLast.map normalizeSegment ++
    [if last = "" then entry.path else normalizeSegment last]

/-- The type that the value is read as. -/
def tag (registry : Registry) (entry : Entry) : Except Fault String :=
  registry.detectCompact ⟨entry.path, primaryValue entry.raw⟩

/-- The path as the name that the design tool knows. -/
def extensions (entry : Entry) : List (String × Wire) :=
  [ ( "com.figma",
      .object [("codeSyntax", .object [("web", .str entry.path)])] ) ]

/--
The token of an entry.  An unreadable value is kept as a text, unless it should
have been a composite one: then there is no token.
-/
def token? (registry : Registry)
    (entry : Entry) : Except Failure (Option Token) := do
  let value := primaryValue entry.raw
  let tag ← entry.tag registry
  let handler ← registry.get (.str tag)
  match ← handler.parseCompact value with
  | some read => return some ⟨.str tag, read, .null, entry.extensions⟩
  | none =>
      if handler.composite then return none
      else return some ⟨.str "string", .plain (.str value), .null, entry.extensions⟩

/-- The note of an entry that has no token. -/
def note? (registry : Registry) (entry : Entry) : Option Note :=
  match entry.token? registry with
  | .ok none =>
      match entry.tag registry with
      | .ok tag => some (.unreadableEntry tag entry.path)
      | .error _ => none
  | _ => none

end Entry

/-- The entries of a source. -/
def entries (source : Wire) : List Entry :=
  source.members.filterMap fun member =>
    match member.2 with
    | .str raw => some ⟨member.1, raw⟩
    | _ => none

/-- What is placed in a collection, in order. -/
abbrev Placements := List (String × Entries)

/--
Adds an entry to its collection; one without a token still brings its
collection along.
-/
def place (entry : Entry) (token? : Option Token) (placements : Placements) :
    Placements :=
  let known := (Wire.lookup? entry.collection placements).getD []
  let added :=
    match token? with
    | some token => [(entry.tokenPath, token)]
    | none => []
  Wire.insert entry.collection (known ++ added) placements

/-- Every entry added to its collection, in order. -/
def placements (registry : Registry) (entries : List Entry) :
    Except Failure Placements :=
  entries.foldlM
    (fun known entry => do
      let token? ← entry.token? registry
      return place entry token? known)
    []

/-- The collection of a name. -/
def collectionOf (name : String) (entries : Entries) : Except Fault Collection :=
  Collection.build (.str name) [(.str defaultMode, entries)] (.str defaultMode)
    (.str ("Design tokens from " ++ name))

/-- Parses a source. -/
def parse (registry : Registry) (source options : Wire) : Except Failure Theme := do
  accept sourceName (reasons source)
  let options ← Options.decode options
  let placed ← placements registry (entries source)
  let collections ← placed.mapM (fun one => Failure.lift (collectionOf one.1 one.2))
  return {
    name := options.themeName
    collections := collections
    provenance? :=
      some ⟨.str "figma-mcp-defs", options.fileKey, .null, .str "1.0.0"⟩
    description := .null }

/-- What happens on the way to the theme of a source. -/
def notes (registry : Registry) (source : Wire) : List Note :=
  let replaced : List String :=
    match placements registry (entries source) with
    | .ok placed =>
        placed.flatMap (fun (one : String × Entries) => Group.replacements one.2)
    | .error _ => []
  (entries source).filterMap (Entry.note? registry) ++
    replaced.map Note.replacedToken

end DesignTokens.CompactExport
