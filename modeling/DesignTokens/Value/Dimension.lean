import DesignTokens.Text.Casing
import DesignTokens.Text.Split
import DesignTokens.Value.Number

namespace DesignTokens

/-!
# Dimensions

A length with a unit, written as a number directly followed by the unit or
with blanks between the two.
-/

open DesignTokens.Text

/-- A length with an explicit unit. -/
structure Dimension where
  value : Wire
  unit : Wire
  deriving Inhabited

namespace Dimension

/-- The units of length. -/
def units : List String := ["px", "rem", "em", "%", "vw", "vh", "dvh", "svh", "lvh"]

/-- A length of a double in a known unit. -/
def ofFloat (value : Float) (unit : String) : Dimension :=
  ⟨.float value, .str unit⟩

/-- A length in pixels. -/
def px (value : Float) : Dimension :=
  ofFloat value "px"

/-- The document form. -/
def encode (dimension : Dimension) : Wire :=
  .object [("value", dimension.value), ("unit", dimension.unit)]

/-- Reads the document form; pixels are meant when the unit is left out. -/
def decode (data : Wire) : Except Fault Dimension := do
  let value ← data.require "value"
  let unit ← data.getD "unit" (.str "px")
  return ⟨value, unit⟩

/-- The written form, number and unit without a space. -/
def text (dimension : Dimension) : Except Fault String := do
  let number ← dimension.value.numberText
  return number ++ dimension.unit.display

/-- Whether a word is the given one when case is ignored. -/
def sameWord (chars word : List Char) : Bool :=
  chars.length == word.length &&
    (chars.zip word).all (fun pair => sameLetter pair.1 pair.2)

/-- Whether a word is a unit of length when case is ignored. -/
def isUnit (chars : List Char) : Bool :=
  units.any (fun unit => sameWord chars unit.toList)

/--
A number and a unit as written, before the unit is lowercased; the
unit may be missing.
-/
structure Written where
  number : Float
  unit? : Option (List Char)

/-- Takes a whole text apart into number and unit. -/
def scan? (chars : List Char) : Option Written :=
  match Number.scanNumber? chars with
  | none => none
  | some (number, rest) =>
      match skipBlank rest with
      | [] => some ⟨number.toFloat, none⟩
      | unit => if isUnit unit then some ⟨number.toFloat, some unit⟩ else none

/-- Reads a length; a bare number takes the given unit. -/
def parse (text : String) (defaultUnit : String) : Option Dimension :=
  (scan? (trimChars text.toList)).map fun written =>
    let unit :=
      match written.unit? with
      | some unit => String.ofList unit
      | none => defaultUnit
    ofFloat written.number (lower unit)

/-- Whether a text is written as a number with a unit of length. -/
def hasUnit (chars : List Char) : Bool :=
  match scan? chars with
  | some written => written.unit?.isSome
  | none => false

/-- Whether a text is written as a number, with or without a unit of length. -/
def isWritten (chars : List Char) : Bool :=
  (scan? chars).isSome

end Dimension

/-- Whether a text, already trimmed, is a bare decimal number. -/
def isBareNumber (chars : List Char) : Bool :=
  match Number.scanNumber? chars with
  | some (_, rest) => rest.isEmpty
  | none => false

/-- Whether a text is a bare decimal number, blanks around it aside. -/
def isNumberText (text : String) : Bool :=
  isBareNumber (trimChars text.toList)

/-- The double that a bare decimal number stands for. -/
def bareNumber? (text : String) : Option Float :=
  match Number.scanNumber? (trimChars text.toList) with
  | some (number, rest) => if rest.isEmpty then some number.toFloat else none
  | none => none

end DesignTokens
