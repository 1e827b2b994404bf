import DesignTokens.Number.Literal
import DesignTokens.Text.Similarity
import DesignTokens.Text.Split
import DesignTokens.Wire.Display

namespace DesignTokens.CommandLine

/-!
# Command line grammar

Words of a command line are options, values of options, or arguments.  Short
options may share one word, and two hyphens end the options.  Everything that
can be wrong with a command line has a cause, from which its sentence is made.
-/

open DesignTokens.Text

/-- What an option accepts. -/
inductive Kind where
  /-- The option stands alone. -/
  | flag
  | anyText
  | oneOf (choices : List String)
  | whole
  deriving Repr, DecidableEq

/-- An option of a command. -/
structure OptionSpec where
  /-- The name under which a command finds the value. -/
  key : String
  /-- The spellings, the preferred one first. -/
  names : List String
  kind : Kind
  deriving Repr, DecidableEq

/-- A command with its options and arguments. -/
structure CommandSpec where
  /-- The words by which the command is called. -/
  path : String
  /-- What may follow these words. -/
  synopsis : String
  options : List OptionSpec
  arguments : List String
  /-- The options end at the first argument, the name of another command. -/
  isGroup : Bool
  deriving Repr, DecidableEq

/-- What is wrong with a command line. -/
inductive UsageError where
  | noSuchOption (name : String) (similar : List String)
  | missingValue (name : String)
  | unexpectedValue (name : String)
  | missingArgument (name : String)
  | badChoice (option : OptionSpec) (value : String) (choices : List String)
  | badWhole (option : OptionSpec) (value : String)
  | extraArguments (words : List String)
  | noSuchCommand (name : String)
  | missingCommand
  /-- A run cannot be quiet and verbose. -/
  | quietAndVerbose
  deriving Repr, DecidableEq

/-- The spellings of an option in a sentence. -/
def OptionSpec.label (option : OptionSpec) : String :=
  joinWith " / " (option.names.map fun name => "'" ++ name ++ "'")

namespace UsageError

/-- The options that may have been meant. -/
def similarText : List String → String
  | [] => ""
  | [one] => " Did you mean " ++ one ++ "?"
  | several =>
      " (Possible options: " ++
        joinWith ", "
          (several.mergeSort (fun left right => decide (left ≤ right))) ++ ")"

/-- The sentence that states the error. -/
def message : UsageError → String
  | .noSuchOption name similar => "No such option: " ++ name ++ similarText similar
  | .missingValue name => "Option '" ++ name ++ "' requires an argument."
  | .unexpectedValue name => "Option '" ++ name ++ "' does not take a value."
  | .missingArgument name => "Missing argument '" ++ name ++ "'."
  | .badChoice option value choices =>
      "Invalid value for " ++ option.label ++ ": " ++ quotedText value ++
        " is not one of " ++ joinWith ", " (choices.map quotedText) ++ "."
  | .badWhole option value =>
      "Invalid value for " ++ option.label ++ ": " ++ quotedText value ++
        " is not a valid integer."
  | .extraArguments words =>
      (match words with
       | [_] => "Got unexpected extra argument ("
       | _ => "Got unexpected extra arguments (") ++ joinWith " " words ++ ")"
  | .noSuchCommand name => "No such command " ++ quotedText name ++ "."
  | .missingCommand => "Missing command."
  | .quietAndVerbose => "--quiet and --verbose are mutually exclusive"

end UsageError

/--
What a command line says: options with their values, in order, and
the other words.
-/
structure Words where
  /-- The keys of options with what was given for them. -/
  given : List (String × String)
  arguments : List String
  deriving Repr, DecidableEq

namespace Words

/-- No words at all. -/
def empty : Words := ⟨[], []⟩

/-- One more option in front. -/
def withOption (words : Words) (option : OptionSpec) (value : String) : Words :=
  { words with given := (option.key, value) :: words.given }

/-- Several options in front. -/
def withOptions (words : Words) (given : List (String × String)) : Words :=
  { words with given := given ++ words.given }

/-- One more argument in front. -/
def withArgument (words : Words) (argument : String) : Words :=
  { words with arguments := argument :: words.arguments }

/-- What was given last for an option. -/
def value? (words : Words) (key : String) : Option String :=
  (words.given.reverse.find? fun entry => entry.1 == key).map Prod.snd

/-- Whether an option was given. -/
def has (words : Words) (key : String) : Bool :=
  (words.value? key).isSome

end Words

namespace CommandSpec

/-- The option of a spelling. -/
def option? (spec : CommandSpec) (name : String) : Option OptionSpec :=
  spec.options.find? fun option => option.names.contains name

/-- Whether a word begins with two hyphens. -/
def isLong (word : String) : Bool :=
  startsWith ['-', '-'] word.toList

/-- The long spellings of all options. -/
def longNames (spec : CommandSpec) : List String :=
  (spec.options.flatMap OptionSpec.names).filter isLong

/-- Whether a word stands for options: a hyphen and something behind it. -/
def isOptionWord (word : String) : Bool :=
  match word.toList with
  | '-' :: _ :: _ => true
  | _ => false

/-- The spelling of an option in a word, and the value behind an equals sign. -/
def splitWord (word : String) : String × Option String :=
  let chars := word.toList
  match chars.dropWhile (· != '=') with
  | _ :: value =>
      (String.ofList (chars.takeWhile (· != '=')), some (String.ofList value))
  | [] => (word, none)

/-- Options that share one word. -/
structure Cluster where
  given : List (String × String)
  /-- An option at the end whose value is the next word, and its spelling. -/
  open? : Option (OptionSpec × String)

/-- The options of the letters of a word. -/
def cluster (spec : CommandSpec) : List Char → Except UsageError Cluster
  | [] => .ok ⟨[], none⟩
  | letter :: rest =>
      let name := String.ofList ['-', letter]
      match spec.option? name with
      | none => .error (.noSuchOption name [])
      | some option =>
          if option.kind = .flag then do
            let others ← spec.cluster rest
            return { others with given := (option.key, "") :: others.given }
          else if rest.isEmpty then .ok ⟨[], some (option, name)⟩
          else .ok ⟨[(option.key, String.ofList rest)], none⟩

/-- What one word stands for, without the words behind it. -/
inductive Reading where
  | argument
  | endOfOptions
  | options (given : List (String × String))
  /-- Options of which the last one takes the next word as its value. -/
  | awaiting (given : List (String × String)) (option : OptionSpec) (name : String)

/-- Reads one word. -/
def readWord (spec : CommandSpec) (word : String) : Except UsageError Reading :=
  if word = "--" then .ok .endOfOptions
  else if !isOptionWord word then .ok .argument
  else
    let (name, value?) := splitWord word
    match if isLong name then spec.option? name else none with
    | some option =>
        match decide (option.kind = .flag), value? with
        | true, some _ => .error (.unexpectedValue name)
        | true, none => .ok (.options [(option.key, "")])
        | false, some value => .ok (.options [(option.key, value)])
        | false, none => .ok (.awaiting [] option name)
    | none =>
        if isLong word then
          .error (.noSuchOption name (closeMatches name spec.longNames))
        else do
          let found ← spec.cluster (word.toList.drop 1)
          match found.open? with
          | some (option, short) => return .awaiting found.given option short
          | none => return .options found.given

/-- Reads the words of a command line. -/
def read (spec : CommandSpec) : List String → Except UsageError Words
  | [] => .ok .empty
  | word :: rest => do
      match ← spec.readWord word with
      | .endOfOptions => return ⟨[], rest⟩
      | .argument =>
          if spec.isGroup then return ⟨[], word :: rest⟩
          else do
            let words ← spec.read rest
            return words.withArgument word
      | .options given => do
          let words ← spec.read rest
          return words.withOptions given
      | .awaiting given option name =>
          match rest with
          | [] => throw (.missingValue name)
          | value :: others => do
              let words ← spec.read others
              return (words.withOption option value).withOptions given

/-- Checks the value of an option. -/
def checkValue (option : OptionSpec) (value : String) : Except UsageError Unit :=
  match option.kind with
  | .oneOf choices =>
      if choices.contains value then .ok ()
      else .error (.badChoice option value choices)
  | .whole =>
      if (Number.readInt? value).isSome then .ok ()
      else .error (.badWhole option value)
  | _ => .ok ()

/--
Checks the value of every option that was given, in the order in which
they first occur.
-/
def checkOptions (spec : CommandSpec) (words : Words) : Except UsageError Unit :=
  ((words.given.map Prod.fst).eraseDups).forM fun key =>
    match spec.options.find? (fun option => option.key == key),
      words.value? key with
    | some option, some value => checkValue option value
    | _, _ => .ok ()

/-- Checks that there are as many arguments as the command takes. -/
def checkArguments (spec : CommandSpec) (words : Words) : Except UsageError Unit :=
  match spec.arguments.drop words.arguments.length,
    words.arguments.drop spec.arguments.length with
  | missing :: _, _ => .error (.missingArgument missing)
  | [], [] => .ok ()
  | [], extra => .error (.extraArguments extra)

/-- The lines that tell what is wrong with a command line. -/
def usageText (spec : CommandSpec) (cause : UsageError) : String :=
  "Usage: " ++ spec.path ++ " " ++ spec.synopsis ++ "\nTry '" ++ spec.path ++
    " --help' for help.\n\nError: " ++ cause.message

end CommandSpec

end DesignTokens.CommandLine
