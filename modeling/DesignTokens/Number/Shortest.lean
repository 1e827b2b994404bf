import DesignTokens.Number.Binary

namespace DesignTokens.Number

/-!
# Decimal digits of doubles

Three choices of digits, each computed exactly: the fewest digits that read
back as the same double, a fixed number of significant digits, and a fixed
number of places after the point.
-/

/-- The number `coefficient · 10^exponent`. -/
structure Decimal where
  coefficient : Nat
  exponent : Int
  deriving Repr, DecidableEq

namespace Decimal

/-- Decimal digits of a natural number, most significant first. -/
def digits (value : Nat) : List Char :=
  Nat.toDigits 10 value

/-- How many decimal digits a natural number has. -/
def width (value : Nat) : Nat :=
  (digits value).length

/--
Moves trailing zeros of the coefficient into the exponent; `fuel`
bounds their number.
-/
def trimZeros : Nat → Decimal → Decimal
  | 0, value => value
  | fuel + 1, value =>
      if value.coefficient ≠ 0 ∧ value.coefficient % 10 = 0 then
        trimZeros fuel ⟨value.coefficient / 10, value.exponent + 1⟩
      else value

/-- The same number without trailing zeros. -/
def trimmed (value : Decimal) : Decimal :=
  trimZeros (width value.coefficient) value

/-- The exponent of the leading digit in scientific notation. -/
def leading (value : Decimal) : Int :=
  Int.ofNat (width value.coefficient) + value.exponent - 1

end Decimal

/-- A fraction multiplied by a power of ten. -/
def timesPowerOfTen (numerator denominator : Nat) (power : Int) : Nat × Nat :=
  match power with
  | .ofNat up => (numerator * powerOfTen up, denominator)
  | .negSucc down => (numerator, denominator * powerOfTen (down + 1))

/--
The exponent `e` with `10^(e-1) ≤ numerator / denominator < 10^e`, for a
positive fraction.
-/
def magnitude (numerator denominator : Nat) : Int :=
  if denominator ≤ numerator then
    Int.ofNat (Decimal.width (numerator / denominator))
  else
    let guess : Int := -(Int.ofNat (Decimal.width (denominator / numerator)))
    let lifted := timesPowerOfTen numerator denominator (-guess)
    if lifted.1 < lifted.2 then guess else guess + 1

/-- The fraction rounded to a number of significant digits. -/
def significant (numerator denominator count : Nat) : Decimal :=
  if numerator = 0 then ⟨0, 0⟩
  else
    let power := Int.ofNat count - magnitude numerator denominator
    let lifted := timesPowerOfTen numerator denominator power
    ⟨roundQuotient lifted.1 lifted.2, -power⟩

/-- The fraction rounded to a number of places after the point. -/
def places (numerator denominator count : Nat) : Nat :=
  roundQuotient (numerator * powerOfTen count) denominator

/--
The numbers that round to a given double, as fractions over one denominator:
lower end, the double itself, upper end.  The ends belong to the double exactly
when its mantissa is even.
-/
structure RoundingInterval where
  low : Nat
  middle : Nat
  high : Nat
  denominator : Nat
  closed : Bool
  deriving Repr, DecidableEq

namespace RoundingInterval

/-- The interval of the double `mantissa · 2^exponent`. -/
def ofBinary (mantissa : Nat) (exponent : Int) : RoundingInterval :=
  let unit := scaled 1 exponent
  let below := if mantissa = powerOfTwo 52 ∧ -1074 < exponent then 1 else 2
  { low := (4 * mantissa - below) * unit.1
    middle := 4 * mantissa * unit.1
    high := (4 * mantissa + 2) * unit.1
    denominator := 4 * unit.2
    closed := mantissa % 2 == 0 }

/-- Whether a fraction rounds to the double. -/
def holds (interval : RoundingInterval) (numerator denominator : Nat) : Bool :=
  let low := interval.low * denominator
  let high := interval.high * denominator
  let point := numerator * interval.denominator
  if interval.closed then decide (low ≤ point ∧ point ≤ high)
  else decide (low < point ∧ point < high)

/-- The nearest number with the given count of digits, if it reads back. -/
def candidate? (interval : RoundingInterval) (count : Nat) : Option Decimal :=
  let power := Int.ofNat count - magnitude interval.middle interval.denominator
  let lifted := timesPowerOfTen interval.middle interval.denominator power
  let back := timesPowerOfTen 1 1 (-power)
  let below := lifted.1 / lifted.2
  let above := below + 1
  let nearest := roundQuotient lifted.1 lifted.2
  let other := if nearest = below then above else below
  if interval.holds (nearest * back.1) back.2 then some ⟨nearest, -power⟩
  else if interval.holds (other * back.1) back.2 then some ⟨other, -power⟩
  else none

end RoundingInterval

/--
The fewest digits that read back as the double `mantissa ·
2^exponent`, nearest first.
-/
def shortest (mantissa : Nat) (exponent : Int) : Decimal :=
  if mantissa = 0 then ⟨0, 0⟩
  else
    let interval := RoundingInterval.ofBinary mantissa exponent
    match (List.range 17).findSome?
      (fun count => interval.candidate? (count + 1)) with
    | some found => found.trimmed
    | none => (significant interval.middle interval.denominator 17).trimmed

end DesignTokens.Number
