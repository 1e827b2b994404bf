import DesignTokens.Text.Split

namespace DesignTokens

/-!
# Console

What a run says to the reader: lines with a mark in front of them, in color if
the terminal shows colors.  A quiet run says only what has to be said.
-/

namespace Console

/-- What a line is about. -/
inductive Mark where
  | success
  | error
  | warning
  | info
  deriving Repr, DecidableEq

namespace Mark

/-- A mark in color. -/
def colored : Mark → String
  | .success => "\x1b[92m✓\x1b[0m"
  | .error => "\x1b[91m✗\x1b[0m"
  | .warning => "\x1b[93m⚠\x1b[0m"
  | .info => "\x1b[94mℹ\x1b[0m"

/-- A mark without color. -/
def plain : Mark → String
  | .success => "[OK]"
  | .error => "[FAIL]"
  | .warning => "[WARN]"
  | .info => "[INFO]"

end Mark

/-- A stream of lines. -/
inductive Stream where
  | out
  | err
  deriving Repr, DecidableEq

/-- A line on one of the streams. -/
structure Line where
  stream : Stream
  text : String
  deriving Repr, DecidableEq

/-- A color or weight of text. -/
inductive Paint where
  | cyan
  | dim
  deriving Repr, DecidableEq

/-- The code that a paint begins with. -/
def Paint.code : Paint → String
  | .cyan => "\x1b[96m"
  | .dim => "\x1b[2m"

/--
Whether a character may stand between the brackets of a terminal
code and its letter.
-/
def isCodeParameter (c : Char) : Bool :=
  c.isDigit || c == ';' || c == '?'

/--
What follows a terminal code, when a text behind an escape character
begins with one.
-/
def afterCode? : List Char → Option (List Char)
  | '[' :: rest =>
      match rest.dropWhile isCodeParameter with
      | letter :: after => if letter.isAlpha then some after else none
      | [] => none
  | _ => none

/-- A text without terminal codes. -/
def withoutCodes (chars : List Char) : List Char :=
  match chars with
  | [] => []
  | '\x1b' :: rest =>
      match afterCode? rest with
      | some after =>
          if after.length ≤ rest.length then withoutCodes after
          else '\x1b' :: withoutCodes rest
      | none => '\x1b' :: withoutCodes rest
  | c :: rest => c :: withoutCodes rest
termination_by chars.length
decreasing_by
  all_goals simp only [List.length_cons]
  all_goals omega

end Console

/-- How a run talks to its reader. -/
structure Console where
  usesColor : Bool
  quiet : Bool
  verbose : Bool
  /-- Whether the streams pass terminal codes on. -/
  keepsCodes : Bool
  deriving Repr, DecidableEq

namespace Console

/-- The mark in front of a line. -/
def markText (console : Console) (mark : Mark) : String :=
  if console.usesColor then mark.colored else mark.plain

/-- A text in a paint, if colors are used. -/
def paint (console : Console) (paint : Paint) (text : String) : String :=
  if console.usesColor then paint.code ++ text ++ "\x1b[0m" else text

/-- A text as it comes through to a stream. -/
def through (console : Console) (text : String) : String :=
  if console.keepsCodes then text else String.ofList (withoutCodes text.toList)

/-- A line, unless the run is quiet about it. -/
def say
    (console : Console)
    (stream : Stream)
    (mark? : Option Mark)
    (isForced : Bool)
    (text : String) : List Line :=
  if console.quiet && stream == .out && !isForced then []
  else
    let marked :=
      match mark? with
      | some mark => console.markText mark ++ " " ++ text
      | none => text
    [⟨stream, console.through marked⟩]

/-- A line on something that went well. -/
def success (console : Console) (text : String) (isForced : Bool) : List Line :=
  console.say .out (some .success) isForced text

/-- A line on something that failed; it is never left out. -/
def error (console : Console) (text : String) : List Line :=
  console.say .err (some .error) true text

/-- A line on something that may be wrong. -/
def warning (console : Console) (text : String) (isForced : Bool) : List Line :=
  console.say .out (some .warning) isForced text

/-- A remark. -/
def info (console : Console) (text : String) : List Line :=
  console.say .out (some .info) false text

/-- A line without a mark. -/
def plain (console : Console) (text : String) (isForced : Bool) : List Line :=
  console.say .out none isForced text

/-- Everything on one stream. -/
def onStream (stream : Stream) (lines : List Line) : String :=
  String.join ((lines.filter fun line => line.stream == stream).map fun line =>
    line.text ++ "\n")

end Console

end DesignTokens
