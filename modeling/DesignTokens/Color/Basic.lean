import DesignTokens.Wire.Basic

namespace DesignTokens

/-!
# Colors

A color has three channels and an alpha.  The text readers produce channels
that are doubles between 0 and 1; a color that was read from a document keeps
its channels as they were written, and `Color.Formats` and the lint rules say
what they can do with them.
-/

/-- An sRGB color; every channel is meant to lie between 0 and 1. -/
structure Color where
  r : Wire
  g : Wire
  b : Wire
  a : Wire
  deriving Inhabited

namespace Color

/-- A color with double channels. -/
def ofFloats (r g b a : Float) : Color :=
  ⟨.float r, .float g, .float b, .float a⟩

/-- The document form of a color. -/
def encode (color : Color) : Wire :=
  .object [("r", color.r), ("g", color.g), ("b", color.b), ("a", color.a)]

/-- Reads the document form; alpha may be left out. -/
def decode (data : Wire) : Except Fault Color := do
  let r ← data.require "r"
  let g ← data.require "g"
  let b ← data.require "b"
  let a ← data.getD "a" (.float 1.0)
  return ⟨r, g, b, a⟩

end Color

end DesignTokens
