import DesignTokens.Wire.Basic
import DesignTokens.Wire.Display
import DesignTokens.Number.Layout

namespace DesignTokens

/-!
# Writing documents

The text form of a value, on one line or with one member a line.  Characters
outside printable ASCII are written by number, in pairs of code units where
one is not enough.
-/

namespace Writer

/-- One code unit as an escape. -/
def unitEscape (unit : Nat) : List Char :=
  '\\' :: 'u' :: hexPadded 4 unit

/-- One character of a text. -/
def charText (c : Char) : List Char :=
  if c = '"' ∨ c = '\\' then ['\\', c]
  else if c = '\n' then ['\\', 'n']
  else if c = '\r' then ['\\', 'r']
  else if c = '\t' then ['\\', 't']
  else if c = '\x08' then ['\\', 'b']
  else if c = '\x0C' then ['\\', 'f']
  else if 32 ≤ c.toNat ∧ c.toNat < 127 then [c]
  else if c.toNat < 0x10000 then unitEscape c.toNat
  else
    unitEscape (0xD800 + (c.toNat - 0x10000) / 0x400) ++
      unitEscape (0xDC00 + (c.toNat - 0x10000) % 0x400)

/-- A text between quotes. -/
def text (value : String) : String :=
  String.ofList ('"' :: (value.toList.flatMap charText ++ ['"']))

/-- A double; infinities and the undefined number are words. -/
def float (value : Float) : String :=
  match Number.Binary.ofFloat value with
  | .finite .. => Number.plainText value
  | .infinite negative => if negative then "-Infinity" else "Infinity"
  | .notANumber => "NaN"

/-- What stands between the marks of a list or an object. -/
structure Layout where
  /-- Before the first and after the last part, given the depth. -/
  breakLine : Nat → String
  /-- Between two parts, given the depth. -/
  separator : Nat → String

/-- All on one line. -/
def Layout.line : Layout where
  breakLine _ := ""
  separator _ := ", "

/-- One part a line, indented by a width for each level. -/
def Layout.indented (width : Nat) : Layout where
  breakLine depth := String.ofList ('\n' :: List.replicate (width * depth) ' ')
  separator depth :=
    String.ofList (',' :: '\n' :: List.replicate (width * depth) ' ')

/-- Parts between two marks; nothing stands between the marks of an empty value. -/
def enclose
    (layout : Layout)
    (depth : Nat)
    (opening closing : String)
    (parts : List String) : String :=
  if parts.isEmpty then opening ++ closing
  else
    opening ++ layout.breakLine (depth + 1) ++
      (layout.separator (depth + 1)).intercalate parts ++
      layout.breakLine depth ++ closing

mutual

/-- A value at a depth. -/
def value (layout : Layout) (depth : Nat) : Wire → String
  | .null => "null"
  | .bool truth => if truth then "true" else "false"
  | .int whole => Number.intText whole
  | .float number => float number
  | .str content => text content
  | .list parts => enclose layout depth "[" "]" (items layout (depth + 1) parts)
  | .obj parts =>
      enclose layout depth "\x7b" "\x7d" (members layout (depth + 1) parts)

/-- The items of a list. -/
def items (layout : Layout) (depth : Nat) : List Wire → List String
  | [] => []
  | item :: rest => value layout depth item :: items layout depth rest

/-- The members of an object. -/
def members (layout : Layout) (depth : Nat) : List (String × Wire) → List String
  | [] => []
  | (name, item) :: rest =>
      (text name ++ ": " ++ value layout depth item) :: members layout depth rest

end

end Writer

namespace Wire

/-- The value on one line. -/
def toLine (value : Wire) : String :=
  Writer.value .line 0 value

/-- The value with one part a line. -/
def toLines (width : Nat) (value : Wire) : String :=
  Writer.value (.indented width) 0 value

mutual

/-- The same value with the members of every object in alphabetical order. -/
def sorted : Wire → Wire
  | .list items => .list (sortedItems items)
  | .obj members =>
      .obj
        ((sortedMembers members).mergeSort
          (fun left right => decide (left.1 ≤ right.1)))
  | value => value

/-- The items of a list, each with its members in order. -/
def sortedItems : List Wire → List Wire
  | [] => []
  | item :: rest => sorted item :: sortedItems rest

/-- The members of an object, each with its own members in order. -/
def sortedMembers : List (String × Wire) → List (String × Wire)
  | [] => []
  | (name, value) :: rest => (name, sorted value) :: sortedMembers rest

end

end Wire

end DesignTokens
