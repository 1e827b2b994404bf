import DesignTokens.Number.Binary
import DesignTokens.Text.Blank
import DesignTokens.Text.Digit

namespace DesignTokens.Number

/-!
# Number literals

Numerals of any script, read as doubles or whole numbers.  A scanner takes the
longest numeral at the front and leaves the rest; a reader takes a whole text.
-/

open DesignTokens.Text

/-- The number that decimal digits stand for. -/
def digitsValue (digits : List Char) : Nat :=
  digits.foldl (fun value c => 10 * value + (digitValue? c).getD 0) 0

/-- Drops the leading zeros of a numeral. -/
def dropZeros (digits : List Char) : List Char :=
  digits.dropWhile (fun c => digitValue? c == some 0)

/-- A decimal numeral, taken apart. -/
structure Literal where
  negative : Bool
  whole : List Char
  fraction : List Char
  exponent : Int
  deriving Repr, DecidableEq

namespace Literal

/--
The double nearest to a numeral.  Numerals beyond the range of doubles are
decided by their size alone, so that no power of ten is ever built for them.
-/
def toFloat (literal : Literal) : Float :=
  let digits := dropZeros (literal.whole ++ literal.fraction)
  let power := literal.exponent - Int.ofNat literal.fraction.length
  let size := Int.ofNat digits.length + power
  if digits.isEmpty ∨ size < -330 then nearestFloat literal.negative 0 1
  else if 310 < size then nearestFloat literal.negative (powerOfTwo 1024) 1
  else
    let coefficient := digitsValue digits
    match power with
    | .ofNat up => nearestFloat literal.negative (coefficient * powerOfTen up) 1
    | .negSucc down =>
        nearestFloat literal.negative coefficient (powerOfTen (down + 1))

end Literal

/-- Takes a minus sign, if there is one. -/
def scanMinus : List Char → Bool × List Char
  | '-' :: rest => (true, rest)
  | chars => (false, chars)

/-- Takes the decimal digits at the front. -/
def scanDigits (chars : List Char) : List Char × List Char :=
  (chars.takeWhile isDecimal, chars.dropWhile isDecimal)

/-- Takes a point and at least one digit, or nothing. -/
def scanFraction (chars : List Char) : List Char × List Char :=
  match chars with
  | '.' :: rest =>
      let digits := scanDigits rest
      if digits.1.isEmpty then ([], chars) else digits
  | _ => ([], chars)

/-- Takes `12` or `12.5`. -/
def scanUnsigned? (chars : List Char) : Option (Literal × List Char) :=
  let whole := scanDigits chars
  if whole.1.isEmpty then none
  else
    let fraction := scanFraction whole.2
    some (⟨false, whole.1, fraction.1, 0⟩, fraction.2)

/-- Takes `12`, `12.5` or `.5`, each possibly after a minus sign. -/
def scanNumber? (chars : List Char) : Option (Literal × List Char) :=
  let sign := scanMinus chars
  match scanUnsigned? sign.2 with
  | some (literal, rest) =>
      some (⟨sign.1, literal.whole, literal.fraction, 0⟩, rest)
  | none =>
      let fraction := scanFraction sign.2
      if fraction.1.isEmpty then none
      else some (⟨sign.1, [], fraction.1, 0⟩, fraction.2)

/-- Takes `12` or `12.5`, possibly after a minus sign. -/
def scanWholeFirst? (chars : List Char) : Option (Literal × List Char) :=
  let sign := scanMinus chars
  (scanUnsigned? sign.2).map
    (fun found => (⟨sign.1, found.1.whole, found.1.fraction, 0⟩, found.2))

/-- Whether every underscore stands between two digits. -/
def underscoresBetweenDigits : Bool → List Char → Bool
  | _, [] => true
  | afterDigit, '_' :: rest =>
      match rest with
      | c :: _ => afterDigit && isDecimal c && underscoresBetweenDigits false rest
      | [] => false
  | _, c :: rest => underscoresBetweenDigits (isDecimal c) rest

/-- A sign in front: whether it is a minus, and what follows it. -/
def scanSign : List Char → Bool × List Char
  | '-' :: rest => (true, rest)
  | '+' :: rest => (false, rest)
  | chars => (false, chars)

/-- Takes an exponent such as `e5` or `E-07`, or nothing. -/
def scanExponent (chars : List Char) : Int × List Char :=
  match chars with
  | mark :: rest =>
      if mark = 'e' ∨ mark = 'E' then
        let sign := scanSign rest
        let digits := scanDigits sign.2
        if digits.1.isEmpty then (0, chars)
        else
          let trimmed := dropZeros digits.1
          let size :=
            if 8 < trimmed.length then powerOfTen 8 else digitsValue trimmed
          (signed sign.1 size, digits.2)
      else (0, chars)
  | [] => (0, [])

/--
Reads a whole numeral such as `1.5`, `.5`, `1.`, `1e5` or `+1_000`, without
blanks around it.
-/
def readLiteral? (chars : List Char) : Option Literal :=
  if !underscoresBetweenDigits false chars then none
  else
    let sign := scanSign (chars.filter (· != '_'))
    let whole := scanDigits sign.2
    let fraction :=
      match whole.2 with
      | '.' :: rest => scanDigits rest
      | rest => ([], rest)
    let exponent := scanExponent fraction.2
    if whole.1.isEmpty && fraction.1.isEmpty then none
    else if exponent.2.isEmpty then some ⟨sign.1, whole.1, fraction.1, exponent.1⟩
    else none

/--
Reads the words for infinity and for an undefined number, in any
case, after a sign.
-/
def readSpecial? (chars : List Char) : Option Float :=
  let sign := scanSign chars
  let word := String.ofList (sign.2.map Char.toLower)
  if word = "inf" ∨ word = "infinity" then
    some (if sign.1 then -(1.0 / 0.0) else 1.0 / 0.0)
  else if word = "nan" then some (0.0 / 0.0)
  else none

/-- Whether a character may stand around a numeral: any blank but a separator. -/
def isPadding (c : Char) : Bool :=
  isBlank c && !isSeparator c

/-- Drops what may stand around a numeral. -/
def dropPadding (chars : List Char) : List Char :=
  trimEndWhile isPadding (chars.dropWhile isPadding)

/--
Reads a whole text as a double; blanks other than separators around the
numeral are ignored.
-/
def readFloat? (text : String) : Option Float :=
  let chars := dropPadding text.toList
  match readSpecial? chars with
  | some value => some value
  | none => (readLiteral? chars).map Literal.toFloat

/-- The most digits a whole numeral may have. -/
def maxWholeDigits : Nat := 4300

/--
Reads a whole text as a whole number; blanks other than separators around the
numeral are ignored.
-/
def readInt? (text : String) : Option Int :=
  let chars := dropPadding text.toList
  if !underscoresBetweenDigits false chars then none
  else
    let sign := scanSign (chars.filter (· != '_'))
    if sign.2.isEmpty || !sign.2.all isDecimal ||
      decide (maxWholeDigits < sign.2.length) then none
    else some (signed sign.1 (digitsValue sign.2))

end DesignTokens.Number
