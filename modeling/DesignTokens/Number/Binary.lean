import DesignTokens.Fault

namespace DesignTokens.Number

/-!
# Doubles as exact numbers

A finite double is `±mantissa · 2^exponent`.  Everything that has to be exact
about doubles (printing, rounding to a whole number, remainders) is computed on
that form with natural numbers; only ordinary arithmetic is left to the
machine.
-/

/-- The number `2^exponent`. -/
def powerOfTwo (exponent : Nat) : Nat :=
  Nat.pow 2 exponent

/-- The number `10^exponent`. -/
def powerOfTen (exponent : Nat) : Nat :=
  Nat.pow 10 exponent

/-- What the bits of a double stand for. -/
inductive Binary where
  /-- The number `±mantissa · 2^exponent`. -/
  | finite (negative : Bool) (mantissa : Nat) (exponent : Int)
  | infinite (negative : Bool)
  | notANumber
  deriving Repr, DecidableEq

namespace Binary

/-- Reads sign, biased exponent and fraction off the 64 bits of a double. -/
def ofBits (bits : Nat) : Binary :=
  let negative := bits / powerOfTwo 63 % 2 == 1
  let biased := bits / powerOfTwo 52 % powerOfTwo 11
  let fraction := bits % powerOfTwo 52
  if biased = 2047 then
    if fraction = 0 then .infinite negative else .notANumber
  else if biased = 0 then
    .finite negative fraction (-1074)
  else
    .finite negative (powerOfTwo 52 + fraction) (Int.ofNat biased - 1075)

/-- The exact content of a double. -/
def ofFloat (value : Float) : Binary :=
  ofBits value.toBits.toNat

end Binary

/-- The fraction `mantissa · 2^exponent` as numerator and denominator. -/
def scaled (mantissa : Nat) (exponent : Int) : Nat × Nat :=
  match exponent with
  | .ofNat up => (mantissa * powerOfTwo up, 1)
  | .negSucc down => (mantissa, powerOfTwo (down + 1))

/--
The quotient rounded to the nearest whole number, a half going to
the even neighbour.
-/
def roundQuotient (numerator denominator : Nat) : Nat :=
  let quotient := numerator / denominator
  let twice := 2 * (numerator % denominator)
  if twice < denominator then quotient
  else if denominator < twice then quotient + 1
  else if quotient % 2 = 0 then quotient
  else quotient + 1

/--
The bits of the double nearest to a non-negative fraction, a tie going
to the even one.
-/
def nearestBits (numerator denominator : Nat) : Nat :=
  if numerator = 0 then 0
  else
    let guess : Int := Int.ofNat numerator.log2 - Int.ofNat denominator.log2 - 53
    let low : Int := if guess < -1074 then -1074 else guess
    let divide (exponent : Int) : Nat × Nat :=
      match exponent with
      | .ofNat up => (numerator, denominator * powerOfTwo up)
      | .negSucc down => (numerator * powerOfTwo (down + 1), denominator)
    let first := divide low
    let exponent := if first.1 / first.2 < powerOfTwo 53 then low else low + 1
    let fraction := divide exponent
    let mantissa := roundQuotient fraction.1 fraction.2
    if mantissa < powerOfTwo 52 then mantissa
    else
      let bits :=
        (exponent + 1075).toNat * powerOfTwo 52 + (mantissa - powerOfTwo 52)
      if bits < 2047 * powerOfTwo 52 then bits else 2047 * powerOfTwo 52

/-- The double nearest to `±numerator / denominator`. -/
def nearestFloat (negative : Bool) (numerator denominator : Nat) : Float :=
  let bits := nearestBits numerator denominator
  Float.ofBits (UInt64.ofNat (if negative then powerOfTwo 63 + bits else bits))

/--
The double nearest to a whole number; a number past the largest
double is infinite.
-/
def ofInt (value : Int) : Float :=
  nearestFloat (decide (value < 0)) value.natAbs 1

/--
The double nearest to a whole number, refused when it is past
the largest double.
-/
def ofInt? (value : Int) : Except Fault Float :=
  let float := ofInt value
  if float.isInf then .error (.overflow "int too large to convert to float")
  else .ok float

/-- Whether a double is a whole number. -/
def isWhole (value : Float) : Bool :=
  match Binary.ofFloat value with
  | .finite _ mantissa exponent =>
      let fraction := scaled mantissa exponent
      fraction.1 % fraction.2 == 0
  | _ => false

/-- Puts a sign on a natural number. -/
def signed (negative : Bool) (magnitude : Nat) : Int :=
  if negative then -(Int.ofNat magnitude) else Int.ofNat magnitude

/-- Applies a rounding of fractions to a double that has a whole neighbour. -/
def toWhole (round : Nat → Nat → Nat) (value : Float) : Except Fault Int :=
  match Binary.ofFloat value with
  | .finite negative mantissa exponent =>
      let fraction := scaled mantissa exponent
      .ok (signed negative (round fraction.1 fraction.2))
  | .infinite _ => .error (.overflow "an infinite number is no whole number")
  | .notANumber => .error (.badValue "an undefined number is no whole number")

/-- The whole part of a double, toward zero. -/
def truncate (value : Float) : Except Fault Int :=
  toWhole (fun numerator denominator => numerator / denominator) value

/-- The whole number nearest to a double, a half going to the even neighbour. -/
def roundToInt (value : Float) : Except Fault Int :=
  toWhole roundQuotient value

/-- The sign bit of a double; set for negative zero too. -/
def hasSignBit (value : Float) : Bool :=
  value.toBits.toNat / powerOfTwo 63 % 2 == 1

/-- The double with the size of the first argument and the sign of the second. -/
def copySign (size sign : Float) : Float :=
  if hasSignBit size == hasSignBit sign then size else -size

/--
The remainder of a division whose quotient is rounded toward zero.  It is
exact: both numbers are whole multiples of the smaller power of two.
-/
def truncatedRemainder (value divisor : Float) : Float :=
  match Binary.ofFloat value, Binary.ofFloat divisor with
  | .finite negative mantissa exponent, .finite _ divisorMantissa divisorExponent =>
      if divisorMantissa = 0 then 0.0 / 0.0
      else
        let low := if exponent < divisorExponent then exponent else divisorExponent
        let left := mantissa * powerOfTwo (exponent - low).toNat
        let right := divisorMantissa * powerOfTwo (divisorExponent - low).toNat
        let fraction := scaled (left % right) low
        nearestFloat negative fraction.1 fraction.2
  | .finite .., .infinite _ => value
  | _, _ => 0.0 / 0.0

/-- The remainder that takes the sign of the divisor. -/
def floorRemainder (value divisor : Float) : Float :=
  let remainder := truncatedRemainder value divisor
  if remainder == 0.0 then copySign 0.0 divisor
  else if (decide (divisor < 0.0)) != (decide (remainder < 0.0)) then
    remainder + divisor
  else remainder

end DesignTokens.Number
