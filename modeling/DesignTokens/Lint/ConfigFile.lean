import DesignTokens.Lint.Document
import DesignTokens.Lint.Resolution
import DesignTokens.Note
import DesignTokens.Wire.Reader
import DesignTokens.Yaml

namespace DesignTokens.Lint

/-!
# Configuration files

A configuration file is named, or is the first one found on the way from a
directory upward.  Without one, the recommended preset applies.
-/

namespace ConfigFile

/-- The names that are looked for in a directory, in this order. -/
def names : List String :=
  [".tokenlintrc.json", ".tokenlintrc.yaml", ".tokenlintrc.yml",
    "tokenlint.config.json"]

/-- The places where a configuration is looked for, from a directory upward. -/
def candidates (directory : FilePath) : List FilePath :=
  directory.upward.flatMap fun place => names.map place.child

/-- The first configuration file on the way from a directory upward. -/
def find? (tree : FileTree) (start : FilePath) : Option FilePath :=
  (candidates (tree.resolve start)).find? tree.isFile

/-- The problem of a file that is not there. -/
def notFound (path : FilePath) : Problem :=
  .configuration ("Lint config file not found: " ++ path.text) (some path.text)
    (some "Check the path given to --config or in extends")

/-- The document in a file, by the suffix of its name. -/
def document? (path : FilePath) (text : String) : Option Wire :=
  if [".yaml", ".yml"].contains path.suffix then Yaml.parse? text
  else Wire.parse? text

/--
Reads the configuration in a file as it stands there.  The reason why a text is
no document, which the message has in full behind a colon, is not modelled.
-/
def read (tree : FileTree) (path : FilePath) : Except Problem Config :=
  match tree.read? path with
  | none => .error (notFound path)
  | some text =>
      match document? path text with
      | none =>
          .error (.configuration "Cannot read lint config" (some path.text) none)
      | some data => Config.decode data (some path.text)

/-- Reads the configuration at an absolute path. -/
def load (tree : FileTree) (path : FilePath) : Except Problem Config :=
  if path ∈ tree.paths then read tree path else .error (notFound path)

/-- A configuration is only read from a path of the tree. -/
theorem mem_paths_of_load {tree : FileTree} {path : FilePath} {config : Config}
    (isLoaded : load tree path = .ok config) :
    path ∈ tree.paths := by
  unfold load at isLoaded
  split at isLoaded
  · assumption
  · simp at isLoaded

/-- The configurations in the files of a tree. -/
def catalog (tree : FileTree) : Catalog where
  locate directory name := tree.resolve (directory.under (FilePath.ofText name))
  load := load tree
  paths := tree.paths
  mem_paths _ _ isLoaded := mem_paths_of_load isLoaded

/--
Where the configuration of a run comes from: the named file, or
one that is found.
-/
def chosen? (tree : FileTree) (path? : Option FilePath) (start : FilePath) :
    Option FilePath :=
  match path? with
  | some path => some (tree.resolve path)
  | none => find? tree start

/-- The configuration of a run. -/
def effective (tree : FileTree) (path? : Option FilePath) (start : FilePath) :
    Except Problem Config :=
  match chosen? tree path? start with
  | some path => (catalog tree).loadResolved path
  | none => .ok Preset.recommended.config

/-- What happens while the configuration of a run is looked for. -/
def notes (tree : FileTree) (path? : Option FilePath) (start : FilePath) :
    List Note :=
  match path? with
  | some _ => []
  | none =>
      match find? tree start with
      | some path => [.foundConfig path.text]
      | none => [.noConfig]

end ConfigFile

end DesignTokens.Lint
