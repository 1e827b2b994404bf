import DesignTokens.Wire.Basic
import DesignTokens.Number.Literal

namespace DesignTokens

/-!
# Reading documents

The text form of documents is JSON, where the words for infinity and for an
undefined number are allowed.  A reader takes a value from the front of a text
and leaves the rest; `Wire.parse?` demands that nothing but space is left.
-/

namespace Reader

/-- Space between the marks of a document. -/
def isSpace (c : Char) : Bool :=
  c == ' ' || c == '\t' || c == '\n' || c == '\r'

/-- Drops space in front. -/
def skipSpace (chars : List Char) : List Char :=
  chars.dropWhile isSpace

/-- The value of a hexadecimal digit. -/
def hexValue? (c : Char) : Option Nat :=
  if c.isDigit then some (c.toNat - 48)
  else if 'a' ≤ c ∧ c ≤ 'f' then some (c.toNat - 87)
  else if 'A' ≤ c ∧ c ≤ 'F' then some (c.toNat - 55)
  else none

/-- The number written by four hexadecimal digits. -/
def hexUnit? (a b c d : Char) : Option Nat := do
  let first ← hexValue? a
  let second ← hexValue? b
  let third ← hexValue? c
  let fourth ← hexValue? d
  return ((first * 16 + second) * 16 + third) * 16 + fourth

/-- The character that a one-letter escape stands for. -/
def escape? (c : Char) : Option Char :=
  if c = '"' ∨ c = '\\' ∨ c = '/' then some c
  else if c = 'n' then some '\n'
  else if c = 't' then some '\t'
  else if c = 'r' then some '\r'
  else if c = 'b' then some '\x08'
  else if c = 'f' then some '\x0C'
  else none

/-- The code units up to the closing quote, and what follows it. -/
def readUnits : List Char → Option (List Nat × List Char)
  | [] => none
  | '"' :: rest => some ([], rest)
  | '\\' :: 'u' :: a :: b :: c :: d :: rest => do
      let unit ← hexUnit? a b c d
      let (units, rest) ← readUnits rest
      return (unit :: units, rest)
  | '\\' :: c :: rest => do
      let escaped ← escape? c
      let (units, rest) ← readUnits rest
      return (escaped.toNat :: units, rest)
  | c :: rest =>
      if c.toNat < 32 ∨ c = '\\' then none
      else do
        let (units, rest) ← readUnits rest
        return (c.toNat :: units, rest)

/-- Whether a code unit is the first half of a pair. -/
def isHighUnit (unit : Nat) : Bool :=
  decide (0xD800 ≤ unit ∧ unit < 0xDC00)

/-- Whether a code unit is the second half of a pair. -/
def isLowUnit (unit : Nat) : Bool :=
  decide (0xDC00 ≤ unit ∧ unit < 0xE000)

/--
The character of a code unit; a lone half of a pair becomes the
replacement character.
-/
def unitChar (unit : Nat) : Char :=
  if isHighUnit unit || isLowUnit unit then '\uFFFD' else Char.ofNat unit

/-- Joins pairs of code units into characters. -/
def joinUnits : List Nat → List Char
  | [] => []
  | [unit] => [unitChar unit]
  | high :: low :: rest =>
      if isHighUnit high && isLowUnit low then
        Char.ofNat (0x10000 + (high - 0xD800) * 0x400 + (low - 0xDC00)) ::
          joinUnits rest
      else unitChar high :: joinUnits (low :: rest)

/-- Reads a text after its opening quote. -/
def readText (chars : List Char) : Option (String × List Char) :=
  (readUnits chars).map (fun found => (String.ofList (joinUnits found.1), found.2))

/--
The digits of the whole part: a zero alone, or digits that do not
start with zero.
-/
def readWhole (chars : List Char) : Option (List Char × List Char) :=
  match chars with
  | '0' :: rest => some (['0'], rest)
  | chars =>
      let digits := chars.takeWhile Char.isDigit
      if digits.isEmpty then none else some (digits, chars.dropWhile Char.isDigit)

/-- A point and digits, if both are there. -/
def readFraction? (chars : List Char) : Option (List Char × List Char) :=
  match chars with
  | '.' :: rest =>
      let digits := rest.takeWhile Char.isDigit
      if digits.isEmpty then none else some (digits, rest.dropWhile Char.isDigit)
  | _ => none

/-- An exponent mark, a sign and digits, if mark and digits are there. -/
def readExponent? (chars : List Char) : Option (Int × List Char) :=
  match chars with
  | mark :: rest =>
      if mark = 'e' ∨ mark = 'E' then
        let sign := Number.scanSign rest
        let digits := sign.2.takeWhile Char.isDigit
        let trimmed := Number.dropZeros digits
        let size := if 8 < trimmed.length then
          Number.powerOfTen 8 else Number.digitsValue trimmed
        if digits.isEmpty then none
        else some (Number.signed sign.1 size, sign.2.dropWhile Char.isDigit)
      else none
  | [] => none

/-- Reads a number; one without point and exponent is a whole number. -/
def readNumber (chars : List Char) : Option (Wire × List Char) := do
  let sign := Number.scanMinus chars
  let (whole, rest) ← readWhole sign.2
  match readFraction? rest with
  | some (fraction, rest) =>
      match readExponent? rest with
      | some (exponent, rest) =>
          return (.float (Number.Literal.mk sign.1 whole fraction exponent).toFloat,
            rest)
      | none =>
          return (.float (Number.Literal.mk sign.1 whole fraction 0).toFloat, rest)
  | none =>
      match readExponent? rest with
      | some (exponent, rest) =>
          return (.float (Number.Literal.mk sign.1 whole [] exponent).toFloat, rest)
      | none =>
          return (.int (Number.signed sign.1 (Number.digitsValue whole)), rest)

/-- Reads one of the words of the format, or a number. -/
def readWord (chars : List Char) : Option (Wire × List Char) :=
  match chars with
  | 'n' :: 'u' :: 'l' :: 'l' :: rest => some (.null, rest)
  | 't' :: 'r' :: 'u' :: 'e' :: rest => some (.bool true, rest)
  | 'f' :: 'a' :: 'l' :: 's' :: 'e' :: rest => some (.bool false, rest)
  | 'N' :: 'a' :: 'N' :: rest => some (.float (0.0 / 0.0), rest)
  | 'I' :: 'n' :: 'f' :: 'i' :: 'n' :: 'i' :: 't' :: 'y' :: rest =>
      some (.float (1.0 / 0.0), rest)
  | '-' :: 'I' :: 'n' :: 'f' :: 'i' :: 'n' :: 'i' :: 't' :: 'y' :: rest =>
      some (.float (-(1.0 / 0.0)), rest)
  | chars => readNumber chars

mutual

/--
Reads one value; every nested value and every further item takes
one unit of fuel.
-/
def readValue : Nat → List Char → Option (Wire × List Char)
  | 0, _ => none
  | fuel + 1, chars =>
      match skipSpace chars with
      | '"' :: rest => (readText rest).map (fun found => (.str found.1, found.2))
      | '[' :: rest =>
          match skipSpace rest with
          | ']' :: rest => some (.list [], rest)
          | rest =>
              (readItems fuel rest).map (fun found => (.list found.1, found.2))
      | '\x7b' :: rest =>
          match skipSpace rest with
          | '\x7d' :: rest => some (.obj [], rest)
          | rest =>
              (readMembers fuel rest).map
                (fun found => (.obj (Wire.ofMembers found.1), found.2))
      | rest => readWord rest

/-- Reads the items of a list up to its closing mark. -/
def readItems : Nat → List Char → Option (List Wire × List Char)
  | 0, _ => none
  | fuel + 1, chars => do
      let (item, rest) ← readValue fuel chars
      match skipSpace rest with
      | ']' :: rest => return ([item], rest)
      | ',' :: rest => do
          let (items, rest) ← readItems fuel rest
          return (item :: items, rest)
      | _ => none

/-- Reads the members of an object up to its closing mark. -/
def readMembers : Nat → List Char → Option (List (String × Wire) × List Char)
  | 0, _ => none
  | fuel + 1, chars =>
      match skipSpace chars with
      | '"' :: rest => do
          let (name, rest) ← readText rest
          match skipSpace rest with
          | ':' :: rest => do
              let (value, rest) ← readValue fuel rest
              match skipSpace rest with
              | '\x7d' :: rest => return ([(name, value)], rest)
              | ',' :: rest => do
                  let (members, rest) ← readMembers fuel rest
                  return ((name, value) :: members, rest)
              | _ => none
          | _ => none
      | _ => none

end

end Reader

/--
Reads a whole document; every step takes a character, so its length
bounds the steps.
-/
def Wire.parse? (text : String) : Option Wire :=
  let chars := text.toList
  match Reader.readValue (chars.length + 1) chars with
  | some (value, rest) =>
      if (Reader.skipSpace rest).isEmpty then some value else none
  | none => none

end DesignTokens
