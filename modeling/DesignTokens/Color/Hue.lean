import DesignTokens.Fault
import DesignTokens.Number.Binary

namespace DesignTokens.Color

/-!
# Hue, saturation and lightness

The two conversions between channels and hue, saturation and lightness.  They
are written over any arithmetic, so that the formulas run on doubles and can be
studied on exact numbers.
-/

/-- The arithmetic that the color formulas need. -/
class Arithmetic (α : Type) extends Add α, Sub α, Mul α, Div α where
  /-- Whole constants. -/
  ofNat : Nat → α
  less : α → α → Bool
  equal : α → α → Bool
  /-- The remainder that takes the sign of the divisor. -/
  remainder : α → α → α

instance : Arithmetic Float where
  ofNat value := Number.ofInt value
  less left right := decide (left < right)
  equal left right := left == right
  remainder := Number.floorRemainder

variable {α : Type} [Arithmetic α]

open Arithmetic

/-- Hue as a part of the full circle, with saturation and lightness. -/
structure Hsl (α : Type) where
  hue : α
  saturation : α
  lightness : α
  deriving Repr, DecidableEq

/-- The larger number, the first of two equals. -/
def larger (left right : α) : α :=
  if less left right then right else left

/-- The smaller number, the first of two equals. -/
def smaller (left right : α) : α :=
  if less right left then right else left

/-- The size of a number. -/
def magnitude (value : α) : α :=
  if less value (ofNat 0) then ofNat 0 - value else value

/-- Limits a number to the range from 0 to 1. -/
def limit (value : α) : α :=
  larger (ofNat 0) (smaller (ofNat 1) value)

/-- A quotient, where dividing by zero is a fault. -/
def divide (value divisor : α) : Except Fault α :=
  if equal divisor (ofNat 0) then .error .divisionByZero else .ok (value / divisor)

/-- Hue, saturation and lightness of three channels. -/
def toHsl (r g b : α) : Except Fault (Hsl α) := do
  let high := larger (larger r g) b
  let low := smaller (smaller r g) b
  let lightness := (high + low) / ofNat 2
  if equal high low then
    return ⟨ofNat 0, ofNat 0, lightness⟩
  else
    let spread := high - low
    let saturation ←
      if less (ofNat 1 / ofNat 2) lightness then
        divide spread (ofNat 2 - high - low)
      else divide spread (high + low)
    let sixth ←
      if equal high r then do
        let part ← divide (g - b) spread
        pure (part + (if less g b then ofNat 6 else ofNat 0))
      else if equal high g then do
        let part ← divide (b - r) spread
        pure (part + ofNat 2)
      else do
        let part ← divide (r - g) spread
        pure (part + ofNat 4)
    return ⟨sixth / ofNat 6, saturation, lightness⟩

/-- The channels before lightness is added, by sixth of the circle. -/
def hueChannels (degrees chroma middle : α) : α × α × α :=
  let zero := ofNat 0
  if less degrees (ofNat 60) then (chroma, middle, zero)
  else if less degrees (ofNat 120) then (middle, chroma, zero)
  else if less degrees (ofNat 180) then (zero, chroma, middle)
  else if less degrees (ofNat 240) then (zero, middle, chroma)
  else if less degrees (ofNat 300) then (middle, zero, chroma)
  else (chroma, zero, middle)

/-- The channels of a hue in degrees, a saturation and a lightness. -/
def ofHsl (hue saturation lightness : α) : α × α × α :=
  let degrees := remainder hue (ofNat 360)
  let chroma := (ofNat 1 - magnitude (ofNat 2 * lightness - ofNat 1)) * saturation
  let middle :=
    chroma *
      (ofNat 1 - magnitude (remainder (degrees / ofNat 60) (ofNat 2) - ofNat 1))
  let base := lightness - chroma / ofNat 2
  let channels := hueChannels degrees chroma middle
  (limit (channels.1 + base), limit (channels.2.1 + base),
    limit (channels.2.2 + base))

end DesignTokens.Color
