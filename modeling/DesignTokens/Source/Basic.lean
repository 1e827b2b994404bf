import DesignTokens.Problem

namespace DesignTokens

/-!
# Sources

What the source formats have in common: a source is checked as a whole before
it is parsed, and options are objects whose members may be spelled in more than
one way.
-/

/-- Lets a source through that nothing speaks against. -/
def accept (source : String) (reasons : List String) : Except Failure Unit :=
  if reasons.isEmpty then .ok ()
  else .error (.problem (.invalidSource source reasons))

/-- The member under the first of the given names that occurs. -/
def firstMember? (names : List String) (members : List (String × Wire)) :
    Option Wire :=
  names.findSome? (fun name => Wire.lookup? name members)

/--
One option under any of its names; empty options leave
everything at its default.
-/
def optionOf (options : Wire) (names : List String) (default : Wire) :
    Except Fault Wire :=
  match options with
  | .obj members => .ok ((firstMember? names members).getD default)
  | other =>
      if other.isTruthy then .error (.noMember other.kind "get") else .ok default

/--
The first of two values that does not count as empty; the second one is
the last resort.
-/
def orElse (value fallback : Wire) : Wire :=
  if value.isTruthy then value else fallback

end DesignTokens
