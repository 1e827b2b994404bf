import DesignTokens.Text.Split
import DesignTokens.Wire.Basic

namespace DesignTokens

/-!
# References

A reference names another token by its path, segments joined with dots.  A path
in braces names the same token.
-/

open DesignTokens.Text

/-- A token value that points at another token. -/
structure Reference where
  path : String
  deriving Repr, DecidableEq, Inhabited

namespace Reference

/-- A path without one pair of braces around it. -/
def stripBraces (chars : List Char) : List Char :=
  match chars with
  | '\x7b' :: rest => if rest.getLast? = some '\x7d' then rest.dropLast else chars
  | _ => chars

/-- The reference to a path that may stand in braces. -/
def ofText (text : String) : Reference :=
  ⟨String.ofList (stripBraces text.toList)⟩

/-- The segments of the path. -/
def segments (reference : Reference) : List String :=
  splitText '.' reference.path

/-- The document form. -/
def encode (reference : Reference) : Wire :=
  .object [("$ref", .str reference.path)]

/-- Reads the path of a reference. -/
def decodePath (data : Wire) : Except Fault Reference :=
  match data with
  | .str text => .ok (ofText text)
  | other => .error (.noMember other.kind "startswith")

end Reference

end DesignTokens
