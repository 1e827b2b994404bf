import DesignTokens.Number.Shortest

namespace DesignTokens.Number

/-!
# Written numbers

Digits become text by one rule with two settings: from which exponent on
positional notation gives way to an exponent, and whether a whole number keeps
a point.  `plainText` is the form in which values are stored and shown,
`generalText` the six-digit form used inside style text, and `fixedText` has a
fixed number of places.
-/

/-- How a decimal is laid out. -/
structure Style where
  /-- The least leading exponent that is written positionally. -/
  positionalFrom : Int
  /-- The first leading exponent that is written with an exponent again. -/
  positionalBelow : Int
  /-- Whether a whole number ends in `.0`. -/
  keepsPoint : Bool
  deriving Repr, DecidableEq

/--
Stored numbers: positional from `1e-4` up to below `1e16`, and
always with a point.
-/
def Style.stored : Style := ⟨-4, 16, true⟩

/-- Six significant digits, trailing zeros dropped. -/
def Style.general : Style := ⟨-4, 6, false⟩

/-- An exponent with its sign and at least two digits. -/
def exponentText (exponent : Int) : List Char :=
  let size := Decimal.digits exponent.natAbs
  let padded := if size.length < 2 then '0' :: size else size
  'e' :: (if exponent < 0 then '-' else '+') :: padded

/-- Lays a decimal out in a style. -/
def layout (style : Style) (value : Decimal) : List Char :=
  let digits := Decimal.digits value.coefficient
  let leading := value.leading
  if style.positionalFrom ≤ leading ∧ leading < style.positionalBelow then
    if leading < 0 then
      '0' :: '.' :: (List.replicate (-leading - 1).toNat '0' ++ digits)
    else
      let whole := (leading + 1).toNat
      let fraction := digits.drop whole
      let integral :=
        digits.take whole ++ List.replicate (whole - digits.length) '0'
      if fraction.isEmpty then
        if style.keepsPoint then integral ++ ['.', '0'] else integral
      else integral ++ '.' :: fraction
  else
    match digits with
    | [] => []
    | [digit] => digit :: exponentText leading
    | digit :: fraction => digit :: '.' :: (fraction ++ exponentText leading)

/-- Writes a minus sign in front. -/
def withSign (negative : Bool) (digits : List Char) : String :=
  String.ofList (if negative then '-' :: digits else digits)

/-- Writes a double, given the layout of its finite magnitude. -/
def floatText (finite : Nat → Int → List Char) (value : Float) : String :=
  match Binary.ofFloat value with
  | .finite negative mantissa exponent =>
      withSign negative (finite mantissa exponent)
  | .infinite negative => withSign negative ['i', 'n', 'f']
  | .notANumber => "nan"

/-- The fewest digits that read back as the same double. -/
def plainText (value : Float) : String :=
  floatText (fun mantissa exponent => layout .stored (shortest mantissa exponent))
    value

/-- At most six significant digits. -/
def generalText (value : Float) : String :=
  floatText
    (fun mantissa exponent =>
      let fraction := scaled mantissa exponent
      layout .general (significant fraction.1 fraction.2 6).trimmed)
    value

/-- A natural number with a point before its last `count` digits. -/
def withPoint (count : Nat) (value : Nat) : List Char :=
  let digits := Decimal.digits value
  let padded := List.replicate (count + 1 - digits.length) '0' ++ digits
  let whole := padded.length - count
  padded.take whole ++ '.' :: padded.drop whole

/-- A fixed positive number of places after the point. -/
def fixedText (count : Nat) (value : Float) : String :=
  floatText
    (fun mantissa exponent =>
      let fraction := scaled mantissa exponent
      withPoint count (places fraction.1 fraction.2 count))
    value

/-- A whole number in decimal digits. -/
def intText (value : Int) : String :=
  withSign (decide (value < 0)) (Decimal.digits value.natAbs)

/--
A natural number in two or more lowercase hexadecimal digits; a minus sign
takes one place.
-/
def hexByteText (value : Int) : String :=
  let digits := Nat.toDigits 16 value.natAbs
  let negative := decide (value < 0)
  let room := if negative then 1 else 2
  withSign negative (List.replicate (room - digits.length) '0' ++ digits)

end DesignTokens.Number
