import DesignTokens.Wire.Basic

namespace DesignTokens

/-!
# Equal values

Equality of document values: numbers are compared by size whatever their kind,
truth values count as 0 and 1, and the order of the members of an object does
not matter.
-/

namespace Wire

/--
The exact number behind a value, as sign, numerator and denominator; `none`
for other kinds.
-/
def fraction? : Wire → Option (Int × Nat)
  | .bool value => some (if value then 1 else 0, 1)
  | .int value => some (value, 1)
  | .float value =>
      match Number.Binary.ofFloat value with
      | .finite negative mantissa exponent =>
          let parts := Number.scaled mantissa exponent
          some (Number.signed negative parts.1, parts.2)
      | _ => none
  | _ => none

/-- Equality of values that hold no other values. -/
def sameLeaf : Wire → Wire → Bool
  | .null, .null => true
  | .str left, .str right => left == right
  | .float left, .float right => left == right
  | left, right =>
      match left.fraction?, right.fraction? with
      | some (a, b), some (c, d) => a * Int.ofNat d == c * Int.ofNat b
      | _, _ => false

mutual

/-- Whether two values are equal. -/
def same : Wire → Wire → Bool
  | .list left, .list right => sameItems left right
  | .obj left, .obj right => left.length == right.length && sameMembers left right
  | left, right => sameLeaf left right

/-- Whether two lists hold equal items in the same places. -/
def sameItems : List Wire → List Wire → Bool
  | [], [] => true
  | left :: lefts, right :: rights => same left right && sameItems lefts rights
  | _, _ => false

/-- Whether every member has an equal one of the same name. -/
def sameMembers : List (String × Wire) → List (String × Wire) → Bool
  | [], _ => true
  | (name, value) :: rest, right =>
      (match lookup? name right with
       | some other => same value other
       | none => false) && sameMembers rest right

end

end Wire

end DesignTokens
