import DesignTokens.CommandLine.Run
import DesignTokens.CommandLine.Wanted

/-!
# The program

Gathers the files that a run may look at, runs, and puts the outcome into
effect: lines on both streams, a written file, and the exit code.
-/

open DesignTokens DesignTokens.CommandLine

/-- Adds the file or the directory at a path to a tree, if there is one. -/
def gatherPath (tree : FileTree) (path : FilePath) : IO FileTree := do
  try
    let place ← IO.FS.realPath path.text
    if ← place.isDir then
      return { tree with directories := path.segments :: tree.directories }
    else
      let text ← IO.FS.readFile path.text
      return { tree with files := tree.files ++ [(path.segments, text)] }
  catch _ => return tree

/-- Gathers wanted files until no new ones are wanted, or the rounds are used up. -/
def gatherFiles (arguments : List String) :
    Nat → List FilePath → FileTree → IO FileTree
  | 0, _, tree => return tree
  | rounds + 1, tried, tree => do
      let wanted :=
        (wantedPaths tree arguments).filter fun path => !tried.contains path
      if wanted.isEmpty then return tree
      let next ← wanted.foldlM gatherPath tree
      gatherFiles arguments rounds (tried ++ wanted) next

/-- What the run finds around it. -/
def surroundingsOf (arguments : List String) : IO Surroundings := do
  let directory ← IO.currentDir
  let start : FileTree := ⟨FilePath.ofText directory.toString, [], []⟩
  let tree ← gatherFiles arguments 100 [] start
  let noColor ← IO.getEnv "NO_COLOR"
  let forceColor ← IO.getEnv "FORCE_COLOR"
  let output ← IO.getStdout
  let isTerminal ← output.isTty
  return {
    arguments := arguments
    tree := tree
    forbidsColor := noColor.isSome
    forcesColor := forceColor.isSome
    isTerminal := isTerminal
    keepsCodes := isTerminal }

/-- Prints lines on the streams that they belong to. -/
def printLines (lines : List Console.Line) : IO Unit :=
  lines.forM fun line =>
    match line.stream with
    | .out => IO.println line.text
    | .err => IO.eprintln line.text

/-- Writes the files that a run has changed. -/
def writeFiles (before after : FileTree) : IO Unit :=
  (after.files.filter fun file => !before.files.contains file).forM fun file =>
    IO.FS.writeFile (FilePath.mk true file.1).text file.2

/-- Runs the program. -/
def main (arguments : List String) : IO UInt32 := do
  let surroundings ← surroundingsOf arguments
  match run surroundings with
  | .error crash => do
      IO.eprintln crash.text
      return 1
  | .ok outcome => do
      printLines outcome.lines
      writeFiles surroundings.tree outcome.tree
      return UInt32.ofNat outcome.exitCode
