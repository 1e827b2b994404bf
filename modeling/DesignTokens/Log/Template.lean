import DesignTokens.Number.Layout
import DesignTokens.Wire.Display

namespace DesignTokens.Log

/-!
# Message templates

A message is written with places for arguments, each marked by a percent sign
and a letter that says how the argument is shown.  Without arguments a template
stands for itself.
-/

/-- How an argument is to be shown. -/
structure Directive where
  /-- The name of the argument, in templates with named ones. -/
  key? : Option String
  flags : List Char
  width : Nat
  precision? : Option Nat
  kind : Char
  deriving Repr

/-- The number that digits write down. -/
def digitsValue (digits : List Char) : Nat :=
  digits.foldl (fun value digit => value * 10 + (digit.toNat - '0'.toNat)) 0

/-- A name in parentheses. -/
def scanKey (chars : List Char) : Option String × List Char :=
  match chars with
  | '(' :: rest =>
      (some (String.ofList (rest.takeWhile (· != ')'))),
        (rest.dropWhile (· != ')')).drop 1)
  | _ => (none, chars)

/-- The digits behind a point. -/
def scanPrecision (chars : List Char) : Option Nat × List Char :=
  match chars with
  | '.' :: rest =>
      (some (digitsValue (rest.takeWhile Char.isDigit)),
        rest.dropWhile Char.isDigit)
  | _ => (none, chars)

/-- Whether a character changes how an argument is padded. -/
def isFlag (c : Char) : Bool :=
  ['-', '+', ' ', '#', '0'].contains c

/-- What stands behind a percent sign. -/
def scanDirective? (chars : List Char) : Option (Directive × List Char) :=
  let (key?, rest) := scanKey chars
  let flags := rest.takeWhile isFlag
  let rest := rest.dropWhile isFlag
  let width := digitsValue (rest.takeWhile Char.isDigit)
  let (precision?, rest) := scanPrecision (rest.dropWhile Char.isDigit)
  match rest with
  | kind :: rest => some (⟨key?, flags, width, precision?, kind⟩, rest)
  | [] => none

/-- The whole number that an argument stands for. -/
def wholeOf (argument : Wire) : Except Fault Int :=
  match argument with
  | .int value => .ok value
  | .bool value => .ok (if value then 1 else 0)
  | .float value =>
      match Number.Binary.ofFloat value with
      | .finite negative mantissa exponent =>
          let parts := Number.scaled mantissa exponent
          .ok (Number.signed negative (parts.1 / parts.2))
      | .infinite _ => .error (.overflow "cannot convert float infinity to integer")
      | .notANumber => .error (.badValue "cannot convert float NaN to integer")
  | other =>
      .error
        (.wrongKind ("%d format: a real number is required, not " ++ other.kind))

/-- The double that an argument stands for. -/
def floatOf (argument : Wire) : Except Fault Float :=
  match argument.number? with
  | some number => number
  | none => .error (.wrongKind ("must be real number, not " ++ argument.kind))

/--
A text filled up to a width, with zeros behind the sign or with
blanks on one side.
-/
def padded (directive : Directive) (isNumber : Bool) (text : String) : String :=
  let missing := directive.width - text.length
  if directive.flags.contains '-' then
    text ++ String.ofList (List.replicate missing ' ')
  else if isNumber && directive.flags.contains '0' then
    let sign := text.toList.takeWhile (fun c => c == '-' || c == '+')
    String.ofList
      (sign ++ List.replicate missing '0' ++ text.toList.drop sign.length)
  else String.ofList (List.replicate missing ' ') ++ text

/-- A number with a plus sign where one is asked for. -/
def signed (directive : Directive) (text : String) : String :=
  if text.toList.head? = some '-' then text
  else if directive.flags.contains '+' then "+" ++ text
  else if directive.flags.contains ' ' then " " ++ text
  else text

/-- A text cut to the precision. -/
def cut (directive : Directive) (text : String) : String :=
  match directive.precision? with
  | some count => String.ofList (text.toList.take count)
  | none => text

/-- An argument as its directive shows it. -/
def Directive.render (directive : Directive) (argument : Wire) :
    Except Fault String :=
  match directive.kind with
  | 's' => .ok (padded directive false (cut directive argument.display))
  | 'r' => .ok (padded directive false (cut directive argument.quoted))
  | 'd' | 'i' | 'u' => do
      let value ← wholeOf argument
      return padded directive true (signed directive (Number.intText value))
  | 'f' | 'F' => do
      let value ← floatOf argument
      return padded directive true
        (signed directive (Number.fixedText (directive.precision?.getD 6) value))
  | _ => .error (.badValue "unsupported format character")

/-- Where the arguments of a template come from. -/
structure Arguments where
  /-- Arguments that have not been shown yet. -/
  positional : List Wire
  named : List (String × Wire)

/-- The argument of a directive, and the arguments that are left. -/
def Arguments.take (arguments : Arguments) (directive : Directive) :
    Except Fault (Wire × Arguments) :=
  match directive.key? with
  | some key =>
      match Wire.lookup? key arguments.named with
      | some found => .ok (found, { arguments with positional := [] })
      | none =>
          if arguments.named.isEmpty then
            .error (.wrongKind "format requires a mapping")
          else .error (.missingKey key)
  | none =>
      match arguments.positional with
      | first :: rest => .ok (first, { arguments with positional := rest })
      | [] => .error (.wrongKind "not enough arguments for format string")

/-- Fills the places of a template; every argument in a row has to be shown. -/
def fillFrom (arguments : Arguments) (chars : List Char) :
    Except Fault (List Char) :=
  match chars with
  | [] =>
      if arguments.positional.isEmpty || !arguments.named.isEmpty then .ok []
      else
        .error (.wrongKind "not all arguments converted during string formatting")
  | '%' :: rest =>
      match scanDirective? rest with
      | none => .error (.badValue "incomplete format")
      | some (directive, after) =>
          if after.length ≤ rest.length then
            if directive.kind = '%' then do
              let others ← fillFrom arguments after
              return '%' :: others
            else do
              let (argument, left) ← arguments.take directive
              let shown ← directive.render argument
              let others ← fillFrom left after
              return shown.toList ++ others
          else .error (.badValue "incomplete format")
  | c :: rest => do
      let others ← fillFrom arguments rest
      return c :: others
termination_by chars.length
decreasing_by
  all_goals simp only [List.length_cons]
  all_goals omega

/--
The arguments of a template; a single object that is not empty
brings named ones.
-/
def argumentsOf (arguments : List Wire) : Arguments :=
  match arguments with
  | [.obj members] => ⟨arguments, members⟩
  | _ => ⟨arguments, []⟩

/-- The message that a template and its arguments make. -/
def message (template : String) (arguments : List Wire) : Except Fault String :=
  if arguments.isEmpty then .ok template
  else (fillFrom (argumentsOf arguments) template.toList).map String.ofList

end DesignTokens.Log
