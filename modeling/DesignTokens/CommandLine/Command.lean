import DesignTokens.CommandLine.Grammar
import DesignTokens.Files
import DesignTokens.Lint.Preset
import DesignTokens.Source.Format

namespace DesignTokens.CommandLine

/-!
# Commands

The commands of the program and what they ask for: parse a source, lint a
theme, or list the types of tokens.
-/

/-- The name of the program. -/
def programName : String := "cli"

/-- The version of the program. -/
def version : String := "0.1.0"

/-- The option that asks for help. -/
def helpOption : OptionSpec := ⟨"help", ["--help"], .flag⟩

/-- The program with the options that all commands share. -/
def programSpec : CommandSpec where
  path := programName
  synopsis := "[OPTIONS] COMMAND [ARGS]..."
  options :=
    [ ⟨"version", ["--version"], .flag⟩,
      ⟨"verbose", ["--verbose", "-v"], .flag⟩,
      ⟨"quiet", ["--quiet", "-q"], .flag⟩,
      ⟨"no-color", ["--no-color"], .flag⟩,
      ⟨"log-file", ["--log-file"], .anyText⟩,
      helpOption ]
  arguments := []
  isGroup := true

/-- The names of the source formats. -/
def formatNames : List String :=
  SourceFormat.all.map SourceFormat.name

/-- Parsing a source. -/
def parseSpec : CommandSpec where
  path := programName ++ " parse"
  synopsis := "[OPTIONS] SOURCE"
  options :=
    [ ⟨"format", ["--format"], .oneOf formatNames⟩,
      ⟨"name", ["--name"], .anyText⟩,
      ⟨"output", ["--output", "-o"], .anyText⟩,
      ⟨"indent", ["--indent"], .whole⟩,
      helpOption ]
  arguments := ["SOURCE"]
  isGroup := false

/-- Linting a theme. -/
def lintSpec : CommandSpec where
  path := programName ++ " lint"
  synopsis := "[OPTIONS] THEME_FILE"
  options :=
    [ ⟨"from", ["--from"], .oneOf ("theme" :: formatNames)⟩,
      ⟨"config", ["--config"], .anyText⟩,
      ⟨"preset", ["--preset"], .oneOf Lint.Preset.names⟩,
      ⟨"format", ["--format"], .oneOf ["text", "json"]⟩,
      helpOption ]
  arguments := ["THEME_FILE"]
  isGroup := false

/-- Listing the types of tokens. -/
def typesSpec : CommandSpec where
  path := programName ++ " types"
  synopsis := "[OPTIONS]"
  options := [helpOption]
  arguments := []
  isGroup := false

/-- The commands by name. -/
def commandSpecs : List (String × CommandSpec) :=
  [("parse", parseSpec), ("lint", lintSpec), ("types", typesSpec)]

/-- What is asked of all commands. -/
structure Common where
  verbose : Bool
  quiet : Bool
  noColor : Bool
  logFile? : Option FilePath
  deriving Repr, DecidableEq

/-- A command with everything that it asks for. -/
inductive Command where
  /-- Parses a source and writes the theme. -/
  | parse (source : FilePath) (format? : Option SourceFormat)
      (name? : Option String) (output? : Option FilePath) (indent : Nat)
  /-- Lints a theme, or a source when its format is given. -/
  | lint (theme : FilePath) (format? : Option SourceFormat)
      (config? : Option FilePath) (preset? : Option Lint.Preset) (asJson : Bool)
  | types
  deriving Repr, DecidableEq

namespace Words

/-- The path that was given for an option. -/
def path? (words : Words) (key : String) : Option FilePath :=
  (words.value? key).map FilePath.ofText

/-- The path that an argument names. -/
def argumentPath (words : Words) : FilePath :=
  FilePath.ofText (words.arguments.headD "")

/-- The number that was given for an option, with none below zero. -/
def count (words : Words) (key : String) (default : Nat) : Nat :=
  match (words.value? key).bind Number.readInt? with
  | some value => value.toNat
  | none => default

end Words

/-- What the options of the program ask of all commands. -/
def commonOf (words : Words) : Common where
  verbose := words.has "verbose"
  quiet := words.has "quiet"
  noColor := words.has "no-color"
  logFile? := words.path? "log-file"

/-- The command of a name, given its words. -/
def commandOf (name : String) (words : Words) : Command :=
  let format? := (words.value? "format").bind SourceFormat.ofName?
  match name with
  | "parse" =>
      .parse words.argumentPath format? ((words.value? "name").filter (· != ""))
        (words.path? "output") (words.count "indent" 2)
  | "lint" =>
      .lint words.argumentPath ((words.value? "from").bind SourceFormat.ofName?)
        (words.path? "config") ((words.value? "preset").bind Lint.Preset.ofName?)
        (words.value? "format" == some "json")
  | _ => .types

/-- A command line that was understood. -/
inductive Request where
  | showVersion
  /-- Help on a command was asked for. -/
  | showHelp (spec : CommandSpec)
  | run (common : Common) (name : String) (arguments : List String)
  deriving Repr, DecidableEq

/--
A command line that was not understood, and the command that it was meant for.
-/
structure Misuse where
  spec : CommandSpec
  cause : UsageError
  deriving Repr, DecidableEq

/-- Blames an error on a command. -/
def blame {α : Type} (spec : CommandSpec) : Except UsageError α → Except Misuse α
  | .ok value => .ok value
  | .error cause => .error ⟨spec, cause⟩

/--
What a command line asks for; the words of the command itself
are left for later.
-/
def requestOf (line : List String) : Except Misuse Request := do
  if line.isEmpty then return .showHelp programSpec
  let words ← blame programSpec (programSpec.read line)
  match (words.given.map Prod.fst).find? fun key =>
    key == "version" || key == "help" with
  | some "version" => return .showVersion
  | some _ => return .showHelp programSpec
  | none =>
      match words.arguments with
      | [] => throw ⟨programSpec, .missingCommand⟩
      | name :: rest =>
          if Wire.has name commandSpecs then
            let common := commonOf words
            if common.quiet && common.verbose then
              throw ⟨programSpec, .quietAndVerbose⟩
            return .run common name rest
          else throw ⟨programSpec, .noSuchCommand name⟩

/-- What the words of a command ask for; `none` when they ask for help. -/
def commandOfWords (name : String) (line : List String) :
    Except Misuse (Option Command) := do
  let spec := (Wire.lookup? name commandSpecs).getD typesSpec
  let words ← blame spec (spec.read line)
  if words.has "help" then return none
  blame spec (spec.checkOptions words)
  blame spec (spec.checkArguments words)
  return some (commandOf name words)

end DesignTokens.CommandLine
