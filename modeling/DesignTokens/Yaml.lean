import DesignTokens.Number.Literal
import DesignTokens.Text.Digit
import DesignTokens.Text.Split
import DesignTokens.Wire.Basic

namespace DesignTokens.Yaml

/-!
# Block documents

A small part of YAML: maps and lists nested by indentation, flat lists and maps
between brackets, quoted and plain scalars, and comments.  A document is first
arranged as an outline, in which a line holds the lines that are indented
further, and then read from the outline.
-/

open DesignTokens.Text

/-- A line of a document: how far it is indented, and what stands on it. -/
structure Line where
  indent : Nat
  text : List Char
  deriving Repr, DecidableEq

/-- A line with the lines below it that are indented further. -/
inductive Outline where
  | node (text : List Char) (children : List Outline)
  deriving Repr

/-- Whether a character is a blank inside a line. -/
def isGap (c : Char) : Bool :=
  c == ' ' || c == '\t'

/--
The characters before a comment; a number sign begins one at the beginning
or after a blank.
-/
def dropComment (quote : Option Char) (afterGap : Bool) : List Char → List Char
  | [] => []
  | c :: rest =>
      match quote with
      | some mark =>
          c :: dropComment (if c = mark then none else some mark) false rest
      | none =>
          if c = '#' ∧ afterGap then []
          else
            let opened := if afterGap && (c == '"' || c == '\'') then
              some c else none
            c :: dropComment opened
              (isGap c || c == '[' || c == ',' || c == '\x7b') rest

/-- Characters without blanks at their end. -/
def trimEnd (chars : List Char) : List Char :=
  (chars.reverse.dropWhile isGap).reverse

/-- Characters without blanks around them. -/
def trim (chars : List Char) : List Char :=
  trimEnd (chars.dropWhile isGap)

/-- What follows the mark of a list item. -/
def afterDash? : List Char → Option (List Char)
  | ['-'] => some []
  | '-' :: c :: rest => if isGap c then some (c :: rest) else none
  | _ => none

/--
The lines that one line of text stands for.  An item is a line of its own,
indented a little further than a key at the same place, and so is what follows
its mark.
-/
def splitItems (indent : Nat) (chars : List Char) : List Line :=
  let place := indent + (chars.takeWhile isGap).length
  match _isText : chars.dropWhile isGap with
  | [] => []
  | first :: rest =>
      if (afterDash? (first :: rest)).isSome then
        ⟨2 * place + 1, ['-']⟩ :: splitItems (place + 1) rest
      else [⟨2 * place, trimEnd (first :: rest)⟩]
termination_by chars.length
decreasing_by
  have shorter := (List.dropWhile_suffix isGap (l := chars)).length_le
  rw [_isText] at shorter
  exact shorter

/-- The lines of a document that hold anything. -/
def linesOf (document : String) : List Line :=
  (splitOn '\n' document.toList).flatMap fun line =>
    splitItems 0 (dropComment none true line)

/--
Puts a line before an outline; it takes the lines in that are indented further.
-/
def attach (line : Line) (outline : List (Nat × Outline)) : List (Nat × Outline) :=
  let inner := outline.takeWhile fun entry => decide (line.indent < entry.1)
  (line.indent, .node line.text (inner.map Prod.snd)) :: outline.drop inner.length

/-- The outline of lines. -/
def outlineOf (lines : List Line) : List Outline :=
  (lines.foldr attach []).map Prod.snd

/-- Plain scalars that stand for something other than a text. -/
def words : List (String × Wire) :=
  ["", "~", "null", "Null", "NULL"].map (fun word => (word, .null)) ++
    ["true", "True", "TRUE", "yes", "Yes", "YES", "on", "On", "ON"].map
      (fun word => (word, .bool true)) ++
    ["false", "False", "FALSE", "no", "No", "NO", "off", "Off", "OFF"].map
      (fun word => (word, .bool false))

/-- Whether characters write a whole number down. -/
def isWhole (chars : List Char) : Bool :=
  !chars.isEmpty && chars.all Char.isDigit

/-- A whole number or a decimal fraction in digits. -/
def number? (chars : List Char) : Option Wire :=
  let digits := match chars with | '-' :: rest => rest | other => other
  match splitOn '.' digits with
  | [whole] =>
      if isWhole whole then (String.ofList chars).toInt?.map Wire.int else none
  | [whole, fraction] =>
      if isWhole whole && isWhole fraction then
        (Number.readFloat? (String.ofList chars)).map Wire.float
      else none
  | _ => none

/-- Characters that a plain scalar cannot begin with. -/
def reserved : List Char :=
  ['&', '*', '!', '|', '>', '%', '@', '\x60', '[', ']', '\x7b', '\x7d', ',']

/-- The text between single quotes, in which a quote is written twice. -/
def unquoteSingle? : List Char → Option (List Char)
  | ['\''] => some []
  | '\'' :: '\'' :: rest => (unquoteSingle? rest).map ('\'' :: ·)
  | '\'' :: _ => none
  | c :: rest => (unquoteSingle? rest).map (c :: ·)
  | [] => none

/--
The text between double quotes, in which a backslash keeps the next
character from ending it.
-/
def unquoteDouble? : List Char → Option (List Char)
  | ['"'] => some []
  | '"' :: _ => none
  | '\\' :: c :: rest =>
      let plain := if c = 'n' then '\n' else if c = 't' then '\t' else c
      (unquoteDouble? rest).map (plain :: ·)
  | c :: rest => (unquoteDouble? rest).map (c :: ·)
  | [] => none

/-- A scalar on one line. -/
def scalar? (chars : List Char) : Option Wire :=
  match trim chars with
  | '\'' :: rest => (unquoteSingle? rest).map fun text => .str (String.ofList text)
  | '"' :: rest => (unquoteDouble? rest).map fun text => .str (String.ofList text)
  | plain =>
      if plain.head?.any reserved.contains then none
      else
        match Wire.lookup? (String.ofList plain) words with
        | some word => some word
        | none =>
            match number? plain with
            | some number => some number
            | none => some (.str (String.ofList plain))

/--
A key with what follows its colon; a colon at the end or before a
blank ends a key.
-/
def splitKey? (quote : Option Char) : List Char → Option (List Char × List Char)
  | [] => none
  | c :: rest =>
      match quote with
      | some mark =>
          (splitKey? (if c = mark then none else some mark) rest).map fun found =>
            (c :: found.1, found.2)
      | none =>
          if c = ':' ∧ rest.head?.all isGap then some ([], rest)
          else
            let opened := if c = '"' ∨ c = '\'' then some c else none
            (splitKey? opened rest).map fun found => (c :: found.1, found.2)

/-- The name that a key stands for. -/
def keyName? (chars : List Char) : Option String :=
  match scalar? chars with
  | some (.str name) => some name
  | _ => none

/-- Whether a line begins a key. -/
def isKeyLine (text : List Char) : Bool :=
  (splitKey? none text).isSome

/-- The parts of a list or map between brackets; nothing follows the last comma. -/
def flowParts (chars : List Char) : List (List Char) :=
  let parts := splitOn ',' chars
  if parts.getLast?.all (fun last => (trim last).isEmpty) then parts.dropLast
  else parts

/-- A member of a map between brackets; a key without a colon holds nothing. -/
def flowMember? (chars : List Char) : Option (String × Wire) := do
  let (key, rest) := (splitKey? none (trim chars)).getD (chars, [])
  let name ← keyName? key
  let value ← scalar? rest
  return (name, value)

/-- What stands between two brackets that enclose a text. -/
def between? (opening closing : Char) (chars : List Char) : Option (List Char) :=
  match chars with
  | first :: rest =>
      if first = opening ∧ rest.getLast? = some closing then some rest.dropLast
      else none
  | [] => none

/-- A value on one line. -/
def inline? (chars : List Char) : Option Wire :=
  let text := trim chars
  match between? '[' ']' text, between? '\x7b' '\x7d' text with
  | some items, _ => ((flowParts items).mapM scalar?).map Wire.list
  | none, some members =>
      ((flowParts members).mapM flowMember?).map fun found =>
        .obj (Wire.ofMembers found)
  | none, none => scalar? text

mutual

/-- The value of the lines below a line. -/
def value? : List Outline → Option Wire
  | [] => some .null
  | .node ['-'] children :: rest => do
      let first ← value? children
      let others ← items? rest
      return .list (first :: others)
  | .node text children :: rest =>
      if isKeyLine text then do
        let first ← member? text children
        let others ← members? rest
        return .obj (Wire.ofMembers (first :: others))
      else if children.isEmpty && rest.isEmpty then inline? text
      else none

/-- The items of a list. -/
def items? : List Outline → Option (List Wire)
  | [] => some []
  | .node text children :: rest =>
      if text = ['-'] then do
        let first ← value? children
        let others ← items? rest
        return first :: others
      else none

/-- The members of a map. -/
def members? : List Outline → Option (List (String × Wire))
  | [] => some []
  | .node text children :: rest => do
      let first ← member? text children
      let others ← members? rest
      return first :: others

/--
A member of a map: its value follows on the same line or stands on
the lines below.
-/
def member? (text : List Char) (children : List Outline) : Option (String × Wire) :=
  match splitKey? none text with
  | none => none
  | some (key, rest) => do
      let name ← keyName? key
      if (trim rest).isEmpty then do
        let value ← value? children
        return (name, value)
      else if children.isEmpty then do
        let value ← inline? rest
        return (name, value)
      else none

end

/-- The value of a document; one without content is null. -/
def parse? (document : String) : Option Wire :=
  value? (outlineOf (linesOf document))

end DesignTokens.Yaml
