import DesignTokens.Console
import DesignTokens.Lint.Message
import DesignTokens.Number.Layout
import DesignTokens.Text.Split

namespace DesignTokens.Lint

/-!
# Lint results for readers

A line for each message, with its place in front and its rule behind it, and a
line of counts at the end.
-/

open DesignTokens.Text (joinWith)

/-- The mark of a severity. -/
def Severity.mark : Severity → Console.Mark
  | .error => .error
  | .warning => .warning
  | .info => .info

namespace Message

/-- The place of a message: its collection and its path, if there are any. -/
def place (message : Message) : String :=
  let collection :=
    match message.collection with
    | .str label => [label]
    | _ => []
  joinWith " " ((collection ++ message.path?.toList).filter (· != ""))

/-- The text of a message with its place and its rule. -/
def sentence (console : Console) (message : Message) : String :=
  let body := message.text ++ " " ++ console.paint .dim ("[" ++ message.rule ++ "]")
  if message.place = "" then body
  else console.paint .cyan message.place ++ ": " ++ body

/-- The line that advises what to do, in verbose runs. -/
def adviceLines (console : Console) (message : Message) : List Console.Line :=
  match message.suggestion? with
  | some suggestion =>
      if console.verbose && suggestion != "" then
        console.plain ("    " ++ console.paint .dim suggestion) false
      else []
  | none => []

/-- The lines of a message; errors are told even by a quiet run. -/
def lines (console : Console) (message : Message) : List Console.Line :=
  console.say .out (some message.severity.mark) (message.severity == .error)
      (message.sentence console) ++
    message.adviceLines console

end Message

namespace Result

/-- The mark of the worst severity that occurs. -/
def mark (result : Result) : Console.Mark :=
  if result.count .error != 0 then .error
  else if result.count .warning != 0 then .warning
  else .success

/-- How many messages of each severity there are. -/
def countText (result : Result) : String :=
  Number.intText (result.count .error) ++ " errors | " ++
    Number.intText (result.count .warning) ++ " warnings | " ++
    Number.intText (result.count .info) ++ " info"

/-- The lines of a result, with the counts at the end. -/
def lines (console : Console) (result : Result) : List Console.Line :=
  result.messages.flatMap (Message.lines console) ++
    console.say .out (some result.mark) true result.countText

end Result

end DesignTokens.Lint
