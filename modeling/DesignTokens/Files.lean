import DesignTokens.Text.Split

namespace DesignTokens

/-!
# Files

Paths as they are written, and a snapshot of the text files below a directory.
Two steps up and down again cancel out when a path is resolved, but a file is
only found when every directory on the way is there.
-/

open DesignTokens.Text

/-- A path as written, without empty segments and without those that stand still. -/
structure FilePath where
  isAbsolute : Bool
  segments : List String
  deriving Repr, DecidableEq

namespace FilePath

/-- The directory that a relative path starts from. -/
def here : FilePath :=
  ⟨false, []⟩

/-- The path that a text writes down. -/
def ofText (text : String) : FilePath where
  isAbsolute := startsWith ['/'] text.toList
  segments :=
    (splitText '/' text).filter fun segment => segment != "" && segment != "."

/-- The text of a path. -/
def text (path : FilePath) : String :=
  if path.isAbsolute then "/" ++ joinWith "/" path.segments
  else if path.segments.isEmpty then "."
  else joinWith "/" path.segments

/-- A path that starts from a directory, unless it is absolute. -/
def under (directory path : FilePath) : FilePath :=
  if path.isAbsolute then path
  else ⟨directory.isAbsolute, directory.segments ++ path.segments⟩

/-- The path without its last segment. -/
def parent (path : FilePath) : FilePath :=
  ⟨path.isAbsolute, path.segments.dropLast⟩

/-- The path of a file in a directory. -/
def child (directory : FilePath) (name : String) : FilePath :=
  ⟨directory.isAbsolute, directory.segments ++ [name]⟩

/--
One segment more below the segments of an absolute path; a step up from the
top stays there.
-/
def step (passed : List String) (segment : String) : List String :=
  if segment = ".." then passed.dropLast else passed ++ [segment]

/-- An absolute path without steps up. -/
def resolved (path : FilePath) : FilePath :=
  ⟨path.isAbsolute, path.segments.foldl step []⟩

/-- The path and all directories above it, from the innermost to the outermost. -/
def upward (path : FilePath) : List FilePath :=
  (List.range (path.segments.length + 1)).reverse.map fun depth =>
    ⟨path.isAbsolute, path.segments.take depth⟩

/-- The last segment. -/
def name (path : FilePath) : String :=
  path.segments.getLast?.getD ""

/-- The part of a name from its last dot on, unless the dot comes first or last. -/
def suffixChars (name : List Char) : List Char :=
  let ending := name.reverse.takeWhile (· != '.')
  let stem := (name.reverse.dropWhile (· != '.')).drop 1
  if ending.isEmpty || stem.isEmpty then [] else '.' :: ending.reverse

/-- The suffix of the last segment. -/
def suffix (path : FilePath) : String :=
  String.ofList (suffixChars path.name.toList)

/-- The last segment without its suffix. -/
def stem (path : FilePath) : String :=
  let chars := path.name.toList
  String.ofList (chars.take (chars.length - (suffixChars chars).length))

end FilePath

/-- The text files that a run can see, by the segments of their absolute paths. -/
structure FileTree where
  workingDirectory : FilePath
  files : List (List String × String)
  /-- Directories that are there without any of the files. -/
  directories : List (List String)

namespace FileTree

/-- The absolute paths of the files. -/
def paths (tree : FileTree) : List FilePath :=
  tree.files.map fun file => ⟨true, file.1⟩

/-- Whether segments lead to a directory. -/
def isDirectoryAt (tree : FileTree) (segments : List String) : Bool :=
  segments.isPrefixOf tree.workingDirectory.segments ||
    tree.directories.any (fun directory => segments.isPrefixOf directory) ||
    tree.files.any
      (fun file => segments.isPrefixOf file.1 && segments.length < file.1.length)

/-- The place that segments lead to, when every directory on the way is there. -/
def walk? (tree : FileTree) (place : List String) :
    List String → Option (List String)
  | [] => some place
  | segment :: rest =>
      if tree.isDirectoryAt place then tree.walk? (FilePath.step place segment) rest
      else none

/-- The absolute form of a path. -/
def absolute (tree : FileTree) (path : FilePath) : FilePath :=
  tree.workingDirectory.under path

/-- The absolute form of a path without steps up. -/
def resolve (tree : FileTree) (path : FilePath) : FilePath :=
  (tree.absolute path).resolved

/-- The place of a path. -/
def locate? (tree : FileTree) (path : FilePath) : Option (List String) :=
  tree.walk? [] (tree.absolute path).segments

/-- Line ends of other systems become plain ones. -/
def plainLineEnds : List Char → List Char
  | '\r' :: '\n' :: rest => '\n' :: plainLineEnds rest
  | '\r' :: rest => '\n' :: plainLineEnds rest
  | c :: rest => c :: plainLineEnds rest
  | [] => []

/-- The text of the file at a path. -/
def read? (tree : FileTree) (path : FilePath) : Option String := do
  let place ← tree.locate? path
  let file ← tree.files.find? (fun file => file.1 == place)
  return String.ofList (plainLineEnds file.2.toList)

/-- Whether there is a file at a path. -/
def isFile (tree : FileTree) (path : FilePath) : Bool :=
  (tree.read? path).isSome

/-- Whether there is a directory at a path. -/
def isDirectory (tree : FileTree) (path : FilePath) : Bool :=
  (tree.locate? path).any tree.isDirectoryAt

/-- Whether there is anything at a path. -/
def isThere (tree : FileTree) (path : FilePath) : Bool :=
  tree.isFile path || tree.isDirectory path

/-- Why a file could not be written. -/
inductive WriteFault where
  | isDirectory
  | noDirectory
  deriving Repr, DecidableEq

/-- The tree after a text is written to a file. -/
def write (tree : FileTree) (path : FilePath) (text : String) :
    Except WriteFault FileTree :=
  match tree.locate? path with
  | some place =>
      if tree.isDirectoryAt place then .error .isDirectory
      else
        .ok { tree with files := (tree.files.filter fun file => file.1 != place) ++
          [(place, text)] }
  | none => .error .noDirectory

end FileTree

end DesignTokens
