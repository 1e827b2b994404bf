import DesignTokens.CommandLine.Command
import DesignTokens.Lint.ConfigFile
import DesignTokens.Lint.Linter
import DesignTokens.Lint.Summary
import DesignTokens.Log.Setup
import DesignTokens.Source.File
import DesignTokens.Wire.Writer

namespace DesignTokens.CommandLine

/-!
# Runs of the program

A run reads files and ends with an exit code, lines on two streams, and perhaps
one more file.  A problem is told to the reader and decides the exit code; a
run that cannot even do that has crashed.
-/

open DesignTokens.Text

/-- What a run finds around it. -/
structure Surroundings where
  arguments : List String
  tree : FileTree
  /-- Whether the environment speaks against colors. -/
  forbidsColor : Bool
  /-- Whether the environment asks for colors. -/
  forcesColor : Bool
  isTerminal : Bool
  /-- Whether the streams pass terminal codes on. -/
  keepsCodes : Bool

/-- What a run leaves behind. -/
structure Outcome where
  exitCode : Nat
  lines : List Console.Line
  tree : FileTree

/-- Why a run could not even tell what is wrong. -/
inductive Crash where
  | failure (cause : Failure)
  | notWritten (cause : FileTree.WriteFault)
  /-- A directory stands where a theme is expected. -/
  | isDirectory (path : FilePath)

/-- The sentence that a crash is reported with. -/
def Crash.text : Crash → String
  | .failure cause => cause.text
  | .notWritten .isDirectory => "Cannot write to a directory"
  | .notWritten .noDirectory => "Cannot write to a directory that is not there"
  | .isDirectory path => "Cannot read the directory " ++ path.text

/-- Turns a failure into a crash. -/
def crashing {α : Type} : Except Failure α → Except Crash α
  | .ok value => .ok value
  | .error cause => .error (.failure cause)

/-- Whether a run uses colors. -/
def usesColor (surroundings : Surroundings) (common : Common) : Bool :=
  if common.noColor || surroundings.forbidsColor then false
  else surroundings.forcesColor || surroundings.isTerminal

/-- How a run talks to its reader. -/
def consoleOf (surroundings : Surroundings) (common : Common) : Console where
  usesColor := usesColor surroundings common
  quiet := common.quiet
  verbose := common.verbose
  keepsCodes := surroundings.keepsCodes

/--
The log of a run: warnings on the console, or everything if the run is verbose.
-/
def logOf (common : Common) : Log.Setup :=
  { Log.Setup.standard with
    level := "WARNING"
    quiet := common.quiet
    verbose := common.verbose
    file? := common.logFile? }

/-- What a command works with. -/
structure Desk where
  tree : FileTree
  console : Console
  sinks : List Log.Sink
  registry : Registry

namespace Desk

/-- The lines that notes leave on the console. -/
def noteLines (desk : Desk) (notes : List Note) : List Console.Line :=
  notes.flatMap fun note =>
    (Log.consoleLines desk.sinks note).map fun line => ⟨.err, line⟩

/-- The end of a run that leaves the files as they are. -/
def finish (desk : Desk) (exitCode : Nat) (lines : List Console.Line) : Outcome :=
  ⟨exitCode, lines, desk.tree⟩

/-- The end of a run with a problem, after some lines. -/
def fail (desk : Desk) (lines : List Console.Line) (problem : Problem) : Outcome :=
  let paint :=
    if desk.console.usesColor then Problem.Paint.terminal else Problem.Paint.plain
  desk.finish problem.exitCode (lines ++ desk.console.error (problem.format paint))

/-- A text on the output, which even a quiet run writes. -/
def echo (desk : Desk) (text : String) : List Console.Line :=
  [⟨.out, desk.console.through text⟩]

end Desk

/-- How many collections and tokens were written where. -/
def writtenText (theme : Theme) (path : FilePath) : String :=
  "Wrote " ++ Number.intText theme.collections.length ++ " collections, " ++
    Number.intText theme.tokenCount ++ " tokens to " ++ path.text

/-- Writes a parsed theme to the output or to a file. -/
def deliver (desk : Desk) (theme : Theme) (output? : Option FilePath) (indent : Nat)
    (lines : List Console.Line) : Except Crash Outcome := do
  let form ← crashing (theme.encode desk.registry)
  let text := form.toLines indent
  match output? with
  | none => return desk.finish 0 (lines ++ desk.echo text)
  | some path =>
      match desk.tree.write path (text ++ "\n") with
      | .error cause => throw (.notWritten cause)
      | .ok tree =>
          return ⟨0, lines ++ desk.console.success (writtenText theme path) false,
            tree⟩

/-- Parses a source and writes the theme. -/
def runParse
    (desk : Desk)
    (source : FilePath)
    (format? : Option SourceFormat)
    (name? : Option String)
    (output? : Option FilePath)
    (indent : Nat) : Except Crash Outcome :=
  let loaded := SourceFormat.loadAny format? desk.registry desk.tree source name?
  let lines := desk.noteLines loaded.notes
  match loaded.theme with
  | .error (.problem problem) => .ok (desk.fail lines problem)
  | .error failure => .error (.failure failure)
  | .ok theme => deliver desk theme output? indent lines

/-- Loads the theme that is to be linted. -/
def loadTheme (desk : Desk) (path : FilePath) (format? : Option SourceFormat) :
    Except Crash Loaded :=
  match format? with
  | some format => .ok (format.load desk.registry desk.tree path none)
  | none =>
      if !desk.tree.isThere path then
        .ok (.failed (.invalidSource "theme" ["File not found: " ++ path.text]))
      else
        match desk.tree.read? path with
        | none => .error (.isDirectory path)
        | some text => .ok ⟨[], Theme.ofText desk.registry path text⟩

/-- The configuration of a lint run, and what happens while it is looked for. -/
def lintConfig
    (desk : Desk)
    (config? : Option FilePath)
    (preset? : Option Lint.Preset) : List Note × Except Problem Lint.Config :=
  match preset? with
  | some preset => ([], .ok preset.config)
  | none =>
      (Lint.ConfigFile.notes desk.tree config? .here,
        Lint.ConfigFile.effective desk.tree config? .here)

/-- The lines of a lint result. -/
def resultLines (desk : Desk) (asJson : Bool) (result : Lint.Result) :
    List Console.Line :=
  if asJson then desk.echo (result.encode.toLines 2) else result.lines desk.console

/-- Lints a theme with a configuration. -/
def runLinter (desk : Desk) (theme : Theme) (config : Lint.Config) (asJson : Bool)
    (lines : List Console.Line) : Except Crash Outcome := do
  let linter := Lint.Linter.standard config
  let result ← crashing (Failure.lift (linter.run theme))
  let exitCode := if result.passed then 0 else 1
  return desk.finish exitCode
    (lines ++ desk.noteLines (linter.notes theme) ++ resultLines desk asJson result)

/-- Lints a theme or a source; errors make the exit code 1. -/
def runLint (desk : Desk) (path : FilePath) (format? : Option SourceFormat)
    (config? : Option FilePath) (preset? : Option Lint.Preset) (asJson : Bool) :
    Except Crash Outcome := do
  let loaded ← loadTheme desk path format?
  let lines := desk.noteLines loaded.notes
  match loaded.theme with
  | .error (.problem problem) => return desk.fail lines problem
  | .error failure => throw (.failure failure)
  | .ok theme =>
      let found := lintConfig desk config? preset?
      let lines := lines ++ desk.noteLines found.1
      match found.2 with
      | .error problem => return desk.fail lines problem
      | .ok config => runLinter desk theme config asJson lines

/-- A text filled up with blanks on its right. -/
def padRight (width : Nat) (text : String) : String :=
  text ++ String.ofList (List.replicate (width - text.length) ' ')

/-- A text filled up with blanks on its left. -/
def padLeft (width : Nat) (text : String) : String :=
  String.ofList (List.replicate (width - text.length) ' ') ++ text

/-- One type of token on a line. -/
def typeText (handler : Handler) : String :=
  padRight 14 handler.tag ++ " " ++
    padLeft 4 (Number.intText handler.priority) ++ "  " ++
    padRight 9 (if handler.composite then "composite" else "scalar") ++ "  " ++
    (handler.defaultNamespace.getD "-")

/-- Lists the types of tokens in the order of detection. -/
def runTypes (desk : Desk) : Outcome :=
  desk.finish 0 (desk.registry.ordered.flatMap fun handler =>
    desk.console.plain (typeText handler) true)

/-- Runs a command. -/
def Command.run (desk : Desk) : Command → Except Crash Outcome
  | .parse source format? name? output? indent =>
      runParse desk source format? name? output? indent
  | .lint theme format? config? preset? asJson =>
      runLint desk theme format? config? preset? asJson
  | .types => .ok (runTypes desk)

/-- The end of a run whose command line was not understood. -/
def Misuse.outcome (misuse : Misuse) (tree : FileTree) : Outcome :=
  ⟨2, [⟨.err, misuse.spec.usageText misuse.cause⟩], tree⟩

/-- The end of a run that was asked for help. -/
def helpOutcome (spec : CommandSpec) (tree : FileTree) : Outcome :=
  ⟨0, [⟨.out, "Usage: " ++ spec.path ++ " " ++ spec.synopsis⟩], tree⟩

/-- Runs the command of a name with its words. -/
def runNamed (surroundings : Surroundings) (common : Common) (name : String)
    (line : List String) : Except Crash Outcome := do
  let sinks ← crashing (Failure.lift ((logOf common).sinks surroundings.tree))
  let desk : Desk :=
    ⟨surroundings.tree, consoleOf surroundings common, sinks, Registry.standard⟩
  match commandOfWords name line with
  | .error misuse => return misuse.outcome desk.tree
  | .ok none =>
      return helpOutcome ((Wire.lookup? name commandSpecs).getD typesSpec) desk.tree
  | .ok (some command) => command.run desk

/-- Runs the program. -/
def run (surroundings : Surroundings) : Except Crash Outcome :=
  match requestOf surroundings.arguments with
  | .error misuse => .ok (misuse.outcome surroundings.tree)
  | .ok .showVersion =>
      .ok ⟨0, [⟨.out, programName ++ ", version " ++ version⟩], surroundings.tree⟩
  | .ok (.showHelp spec) => .ok (helpOutcome spec surroundings.tree)
  | .ok (.run common name line) => runNamed surroundings common name line

end DesignTokens.CommandLine
