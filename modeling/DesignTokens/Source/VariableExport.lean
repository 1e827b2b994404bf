import DesignTokens.Source.CompactExport

namespace DesignTokens.VariableExport

/-!
# Variable exports

A variable export lists variables and collections by key.  A collection has
modes, and a variable has a value for each mode; a value may be an alias of
another variable.  Entries that are not objects with a name are passed over.
-/

open DesignTokens.Text

/-- The name of the format in findings. -/
def sourceName : String := "figma-native"

/--
The object that holds variables and collections: the one under `meta`, or
the source itself.
-/
def bodyOf (members : List (String × Wire)) : List (String × Wire) :=
  match Wire.lookup? "meta" members with
  | some (.obj inner) => inner
  | _ => members

/-- The members of an object under a name; any other kind counts as missing. -/
def table? (name : String) (body : List (String × Wire)) :
    Option (List (String × Wire)) :=
  match Wire.lookup? name body with
  | some (.obj members) => some members
  | _ => none

/-- The sentence, when it applies. -/
def reasonWhen (applies : Bool) (sentence : String) : List String :=
  if applies then [sentence] else []

/-- Everything that speaks against a source. -/
def reasons (source : Wire) : List String :=
  match source with
  | .obj (first :: rest) =>
      let members := first :: rest
      let body := bodyOf members
      reasonWhen ((Wire.lookup? "error" members).getD .null).isTruthy
          "Variables response contains error" ++
        reasonWhen (table? "variables" body).isNone
          "Variables response missing variables data" ++
        reasonWhen (table? "variableCollections" body).isNone
          "Variables response missing collections data"
  | _ => ["A Figma variables response or MCP file data must be provided"]

/-- The segments of a variable's name, each normalized. -/
def variablePath (name : String) : TokenPath :=
  (splitText '/' name).map CompactExport.normalizeSegment

/-- Whether a value is an alias of another variable. -/
def isAlias (value : Wire) : Bool :=
  match Wire.lookup? "type" value.members with
  | some kind => kind.isText "VARIABLE_ALIAS"
  | none => false

/-- The name of an object that has one. -/
def nameOf? (item : Wire) : Option String :=
  match Wire.lookup? "name" item.members with
  | some (.str name) => some name
  | _ => none

/--
The theme's name, the file that it stands for, and whether hidden
collections are kept.
-/
structure Options where
  themeName : Wire
  fileKey : Wire
  includeHidden : Bool

/-- Reads options. -/
def Options.decode (data : Wire) : Except Fault Options := do
  let themeName ← optionOf data ["theme_name", "fileName"] .null
  let fileKey ← optionOf data ["figma_file_key", "fileKey"] .null
  let includeHidden ← optionOf data ["include_hidden"] (.bool false)
  return ⟨themeName, fileKey, includeHidden.isTruthy⟩

/-- A variable: an object with a name, and the identity that aliases use. -/
structure Variable where
  id : Wire
  name : String
  members : List (String × Wire)
  deriving Inhabited

namespace Variable

/-- One member, or a default. -/
def getD (subject : Variable) (name : String) (default : Wire) : Wire :=
  (Wire.lookup? name subject.members).getD default

/-- The path of the variable's tokens. -/
def path (subject : Variable) : TokenPath :=
  variablePath subject.name

/--
The variable under a key, whose identity is the key unless it
has one of its own.
-/
def ofMember? (key : String) (item : Wire) : Option Variable :=
  (nameOf? item).map fun name =>
    ⟨(Wire.lookup? "id" item.members).getD (.str key), name, item.members⟩

/-- The items of a member that may be left out. -/
def partsOf (value : Wire) : Except Fault (List Wire) :=
  if value.isTruthy then value.parts else .ok []

/-- What the variable may be used for. -/
def scopes (subject : Variable) : Except Fault (List Wire) :=
  partsOf (subject.getD "scopes" .null)

/-- What is known about the variable when its type is worked out. -/
def context (subject : Variable) (scopes : List Wire) : NativeContext :=
  ⟨subject.getD "resolvedType" (.str "STRING"), scopes, subject.name⟩

/-- The names of the variable on the platforms, as a member that may be left out. -/
def codeSyntax (subject : Variable) : Except Fault (List (String × Wire)) := do
  let written := subject.getD "codeSyntax" .null
  if written.isTruthy then
    let web ← written.getD "WEB" .null
    let android ← written.getD "ANDROID" .null
    let ios ← written.getD "iOS" .null
    return [("codeSyntax",
      .object [("web", web), ("android", android), ("ios", ios)])]
  else return []

/-- What the design tool knows about the variable. -/
def extensions (subject : Variable) (scopes : List Wire) :
    Except Fault (List (String × Wire)) := do
  let written ← subject.codeSyntax
  return [
      ( "com.figma",
        .object
          ([ ("variableId", subject.getD "id" .null),
             ("scopes", .list scopes),
             ("hiddenFromPublishing",
               subject.getD "hiddenFromPublishing" (.bool false)) ] ++
            written) ) ]

/-- The description, where an empty one counts as none. -/
def description (subject : Variable) : Wire :=
  orElse (subject.getD "description" .null) .null

end Variable

/-- The variable of an identity. -/
def byIdentity? (known : List Variable) (id : Wire) : Option Variable :=
  known.find? (fun subject => subject.id.same id)

/-- Adds a variable; one of the same identity takes the place of the earlier one. -/
def addVariable (subject : Variable) : List Variable → List Variable
  | [] => [subject]
  | first :: rest =>
      if first.id.same subject.id then { subject with id := first.id } :: rest
      else first :: addVariable subject rest

/-- The variables of a source, by identity. -/
def listedVariables (items : List (String × Wire)) : Except Fault (List Variable) :=
  items.foldlM
    (fun known item =>
      match Variable.ofMember? item.1 item.2 with
      | none => .ok known
      | some subject =>
          if subject.id.isKey then .ok (addVariable subject known)
          else .error subject.id.keyFault)
    []

/-- The identity that an alias names. -/
def aliasTarget (target : Wire) : Wire :=
  (Wire.lookup? "id" target.members).getD (.str "")

/--
The reference that an alias stands for; an unknown variable is referred to
by its identity.
-/
def reference (known : List Variable) (target : Wire) : Except Fault Reference :=
  let id := aliasTarget target
  if id.isKey then
    match byIdentity? known id with
    | some subject => .ok (Reference.ofText (TokenPath.key subject.path))
    | none =>
        .ok
          (Reference.ofText ((Wire.lookup? "id" target.members).getD .null).display)
  else .error id.keyFault

/-- What became of the value of a variable in a mode. -/
inductive Outcome where
  | token (result : Token)
  /-- The value could not be read as the given type. -/
  | unreadable (tag : String)

/-- Reads the value of a variable in a mode. -/
def readValue
    (registry : Registry)
    (known : List Variable)
    (subject : Variable)
    (value : Wire) : Except Failure Outcome := do
  let scopes ← subject.scopes
  let tag ← registry.detectNative (subject.context scopes)
  let extensions ← subject.extensions scopes
  let tokenOf (tag : String) (read : TokenValue) : Outcome :=
    .token ⟨.str tag, read, subject.description, extensions⟩
  if isAlias value then
    let target ← reference known value
    return tokenOf tag (.reference target)
  else
    let handler ← registry.get (.str tag)
    match ← handler.parseNative value with
    | some read => return tokenOf tag read
    | none =>
        match value with
        | .null => return .unreadable tag
        | value =>
            if handler.composite then return .unreadable tag
            else return tokenOf "string" (.plain (.str value.display))

/-- A mode of a collection: an object with a name and an identity. -/
structure Mode where
  id : Wire
  name : String
  deriving Inhabited

/-- The mode that an item describes. -/
def Mode.ofItem? (item : Wire) : Option Mode := do
  let name ← nameOf? item
  let id ← Wire.lookup? "modeId" item.members
  return ⟨id, name⟩

/-- A collection: an object with a name, and the identity that variables use. -/
structure Listed where
  id : Wire
  name : String
  members : List (String × Wire)
  deriving Inhabited

namespace Listed

/-- One member, or a default. -/
def getD (listed : Listed) (name : String) (default : Wire) : Wire :=
  (Wire.lookup? name listed.members).getD default

/--
The collection under a key, whose identity is the key unless it
has one of its own.
-/
def ofMember? (key : String) (item : Wire) : Option Listed :=
  (nameOf? item).map fun name =>
    ⟨(Wire.lookup? "id" item.members).getD (.str key), name, item.members⟩

/-- The modes that can be used. -/
def modes (listed : Listed) : Except Fault (List Mode) := do
  let items ← Variable.partsOf (listed.getD "modes" .null)
  return items.filterMap Mode.ofItem?

/-- The name of the default mode: the declared one, else the first one. -/
def defaultMode (listed : Listed) (modes : List Mode) : String :=
  match modes.find?
    (fun mode => mode.id.same (listed.getD "defaultModeId" .null)) with
  | some mode => mode.name
  | none => ((modes.head?).map Mode.name).getD "Default"

/-- Whether the collection is left out unless hidden ones are asked for. -/
def isHidden (listed : Listed) : Bool :=
  (listed.getD "hiddenFromPublishing" .null).isTruthy

end Listed

/-- The value of a variable in a mode, if it has one. -/
def valueIn? (subject : Variable) (mode : Mode) : Except Fault (Option Wire) :=
  match subject.getD "valuesByMode" .null with
  | .obj values =>
      match mode.id with
      | .str id => .ok (Wire.lookup? id values)
      | other => if other.isKey then .ok none else .error other.keyFault
  | _ => .ok none

/-- The variables of a collection. -/
def members (known : List Variable) (listed : Listed) : List Variable :=
  known.filter
    (fun subject => (subject.getD "variableCollectionId" (.str "")).same listed.id)

/-- What became of the values of some variables in a mode, in order. -/
def outcomes (registry : Registry) (known subjects : List Variable) (mode : Mode) :
    Except Failure (List (Variable × Outcome)) :=
  subjects.foldlM
    (fun found subject => do
      match ← valueIn? subject mode with
      | none => return found
      | some value => do
          let outcome ← readValue registry known subject value
          return found ++ [(subject, outcome)])
    []

/-- The tokens of a mode, each with its path. -/
def entriesOf (found : List (Variable × Outcome)) : Entries :=
  found.filterMap fun one =>
    match one.2 with
    | .token result => some (one.1.path, result)
    | .unreadable _ => none

/--
Entries under the names of their modes; modes of one name share their entries.
-/
def byMode (found : List (Mode × Entries)) : List (String × Entries) :=
  found.foldl
    (fun known one =>
      Wire.insert one.1.name (((Wire.lookup? one.1.name known).getD []) ++ one.2)
        known)
    []

/-- Everything that was read for a collection. -/
structure Reading where
  listed : Listed
  modes : List Mode
  found : List (Mode × List (Variable × Outcome))

namespace Reading

/-- The entries of every mode, by name. -/
def entries (reading : Reading) : List (String × Entries) :=
  byMode (reading.found.map (fun one => (one.1, entriesOf one.2)))

/-- The collection that the reading amounts to. -/
def collection (reading : Reading) : Except Fault Collection :=
  Collection.build (.str reading.listed.name)
    (reading.entries.map (fun mode => (.str mode.1, mode.2)))
    (.str (reading.listed.defaultMode reading.modes))
    (.str ("Figma collection: " ++ reading.listed.name))

end Reading

/-- What became of a listed collection. -/
inductive Step where
  /-- The key does not hold an object with a name. -/
  | unnamed (key : String)
  | withoutModes (name : String)
  /-- No variables, or hidden. -/
  | leftOut
  | read (reading : Reading)

/-- Reads a listed collection. -/
def readListed (registry : Registry) (known : List Variable) (includeHidden : Bool)
    (item : String × Wire) : Except Failure Step := do
  match Listed.ofMember? item.1 item.2 with
  | none => return .unnamed item.1
  | some listed => do
      let modes ← listed.modes
      if modes.isEmpty then return .withoutModes listed.name
      if !listed.id.isKey then throw (.fault listed.id.keyFault)
      let subjects := members known listed
      if subjects.isEmpty || (listed.isHidden && !includeHidden) then
        return .leftOut
      let found ← modes.mapM fun mode => do
        let found ← outcomes registry known subjects mode
        return (mode, found)
      return .read ⟨listed, modes, found⟩

/--
Every listed collection with what became of it, and the variables that
aliases can name.
-/
structure Readings where
  known : List Variable
  steps : List Step

/-- The collections that were read. -/
def Readings.read (readings : Readings) : List Reading :=
  readings.steps.filterMap fun step =>
    match step with
    | .read reading => some reading
    | _ => none

/-- Reads all collections of a source. -/
def readings (registry : Registry) (source : Wire) (includeHidden : Bool) :
    Except Failure Readings := do
  let body := bodyOf source.members
  let known ← listedVariables ((table? "variables" body).getD [])
  known.forM fun subject => do
    let id := subject.getD "variableCollectionId" (.str "")
    if id.isKey then pure () else throw (Failure.fault id.keyFault)
  let steps ← ((table? "variableCollections" body).getD []).mapM
    (readListed registry known includeHidden)
  return ⟨known, steps⟩

/--
Where a source comes from: a document with a name of its own, or
a plain response.
-/
def provenanceName (source : Wire) : String :=
  if !Wire.has "meta" source.members && Wire.has "name" source.members then
    "figma-mcp"
  else "figma-api"

/-- Parses a source. -/
def parse (registry : Registry) (source options : Wire) : Except Failure Theme := do
  accept sourceName (reasons source)
  let options ← Options.decode options
  let readings ← readings registry source options.includeHidden
  let collections ← readings.read.mapM
    (fun reading => Failure.lift reading.collection)
  let member (name : String) : Wire := (Wire.lookup? name source.members).getD .null
  return {
    name := orElse options.themeName (orElse (member "name") (.str "Untitled"))
    collections := collections
    provenance? :=
      some ⟨.str (provenanceName source), options.fileKey, member "lastModified",
        .str "1.0.0"⟩
    description := .null }

/-- The note of a value that is not there or not read. -/
def outcomeNote?
    (known : List Variable)
    (subject : Variable)
    (mode : Mode)
    (outcome : Outcome) : Option Note :=
  match outcome with
  | .unreadable tag => some (.unreadableVariable tag subject.name)
  | .token _ =>
      match valueIn? subject mode with
      | .ok (some value) =>
          if isAlias value && (byIdentity? known (aliasTarget value)).isNone then
            some (.unknownAlias ((Wire.lookup? "id" value.members).getD .null))
          else none
      | _ => none

/-- What happens on the way to a collection. -/
def stepNotes (known : List Variable) : Step → List Note
  | .unnamed key => [.unnamedCollection key]
  | .withoutModes name => [.collectionWithoutModes name]
  | .leftOut => []
  | .read reading =>
      reading.found.flatMap (fun mode =>
        mode.2.filterMap (fun one => outcomeNote? known one.1 mode.1 one.2)) ++
      (match reading.collection with
       | .ok collection =>
           collection.modes.flatMap fun label =>
             match label with
             | .str name =>
                 (Group.replacements
                   ((Wire.lookup? name reading.entries).getD [])).map
                   Note.replacedToken
             | _ => []
       | .error _ => [])

/-- What happens on the way to the theme of a source. -/
def notes (registry : Registry) (source : Wire) : List Note :=
  let unnamed :=
    ((table? "variables" (bodyOf source.members)).getD []).filterMap fun item =>
      if (nameOf? item.2).isNone then some (Note.unnamedVariable item.1) else none
  match readings registry source false with
  | .ok readings => unnamed ++ readings.steps.flatMap (stepNotes readings.known)
  | .error _ => unnamed

end DesignTokens.VariableExport
