import DesignTokens.Wire.Basic
import DesignTokens.Number.Layout
import DesignTokens.Text.Printable

namespace DesignTokens

/-!
# Displayed values

How a value appears inside a sentence: texts as they are at the top and quoted
inside lists and objects, numbers in their stored form.
-/

open DesignTokens.Text

/-- A number in hexadecimal, padded to a width. -/
def hexPadded (width : Nat) (value : Nat) : List Char :=
  let digits := Nat.toDigits 16 value
  List.replicate (width - digits.length) '0' ++ digits

/-- One character inside the given quotes. -/
def quotedChar (quote : Char) (c : Char) : List Char :=
  if c = quote ∨ c = '\\' then ['\\', c]
  else if c = '\n' then ['\\', 'n']
  else if c = '\r' then ['\\', 'r']
  else if c = '\t' then ['\\', 't']
  else if isPrintable c then [c]
  else if c.toNat < 256 then '\\' :: 'x' :: hexPadded 2 c.toNat
  else if c.toNat < 65536 then '\\' :: 'u' :: hexPadded 4 c.toNat
  else '\\' :: 'U' :: hexPadded 8 c.toNat

/-- A text in single quotes, or in double quotes when it holds only single ones. -/
def quotedText (text : String) : String :=
  let chars := text.toList
  let quote := if chars.contains '\'' && !chars.contains '"' then '"' else '\''
  String.ofList (quote :: (chars.flatMap (quotedChar quote) ++ [quote]))

namespace Wire

mutual

/-- A value inside a list or an object: texts are quoted. -/
def quoted : Wire → String
  | .null => "None"
  | .bool value => if value then "True" else "False"
  | .int value => Number.intText value
  | .float value => Number.plainText value
  | .str text => quotedText text
  | .list items => "[" ++ ", ".intercalate (quotedItems items) ++ "]"
  | .obj members => "\x7b" ++ ", ".intercalate (quotedMembers members) ++ "\x7d"

/-- The items of a list, each quoted. -/
def quotedItems : List Wire → List String
  | [] => []
  | item :: rest => quoted item :: quotedItems rest

/-- The members of an object, each as name and value. -/
def quotedMembers : List (String × Wire) → List String
  | [] => []
  | (name, value) :: rest =>
      (quotedText name ++ ": " ++ quoted value) :: quotedMembers rest

end

/-- A value inside a sentence: a text stands for itself. -/
def display : Wire → String
  | .str text => text
  | value => value.quoted

/-- The member name that a key becomes in a document. -/
def memberName (key : Wire) : Except Fault String :=
  match key with
  | .str text => .ok text
  | .bool truth => .ok (if truth then "true" else "false")
  | .null => .ok "null"
  | other => if other.isKey then .ok other.display else .error other.keyFault

end Wire

end DesignTokens
