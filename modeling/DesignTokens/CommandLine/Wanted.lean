import DesignTokens.Lint.ConfigFile

namespace DesignTokens.CommandLine

/-!
# Files that a run may look at

Before a run, the files that it may look at are gathered: those that its words
name, configurations on the way upward, and whatever these build on.
-/

/--
The paths that a word may name: the word itself, or what follows an
equals sign in it.
-/
def pathsOfWord (word : String) : List FilePath :=
  let chars := word.toList
  let value := (chars.dropWhile (· != '=')).drop 1
  [FilePath.ofText word, FilePath.ofText (String.ofList value)]

/-- The paths of the configurations that the files of a tree build on. -/
def extendedPaths (tree : FileTree) : List FilePath :=
  tree.paths.flatMap fun path =>
    match Lint.ConfigFile.load tree path with
    | .ok config =>
        config.extended.map fun name => path.parent.under (FilePath.ofText name)
    | .error _ => []

/--
The absolute paths of the files that a run may look at, as far
as they are known.
-/
def wantedPaths (tree : FileTree) (arguments : List String) : List FilePath :=
  let named := arguments.flatMap pathsOfWord ++ extendedPaths tree
  let files :=
    named.map tree.resolve ++ Lint.ConfigFile.candidates tree.workingDirectory
  (files ++ files.map FilePath.parent).eraseDups

end DesignTokens.CommandLine
