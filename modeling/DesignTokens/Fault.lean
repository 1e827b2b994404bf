namespace DesignTokens

/-!
# Faults

A fault is the reason why a value could not be used where it stood: a key that
is not there, a value of another kind, a number outside the range of its
target.  Faults are data, so that a caller can turn one into a finding, a
structured error, or a failure of the whole run.
-/

/-- Why a value could not be used. -/
inductive Fault where
  /-- An object without the required key. -/
  | missingKey (key : String)
  /-- A value of a kind that has no such part or operation. -/
  | noMember (kind : String) (member : String)
  /-- A value of the wrong kind for the operation applied to it. -/
  | wrongKind (text : String)
  /-- A value of the right kind whose content is not acceptable. -/
  | badValue (text : String)
  /-- A number too large for its target. -/
  | overflow (text : String)
  /-- A position past the end of a list. -/
  | outOfRange
  /-- A division by zero. -/
  | divisionByZero
  deriving Repr, DecidableEq

/-- The sentence that describes a fault. -/
def Fault.text : Fault → String
  | .missingKey key => "'" ++ key ++ "'"
  | .noMember kind member =>
      "'" ++ kind ++ "' object has no attribute '" ++ member ++ "'"
  | .wrongKind text => text
  | .badValue text => text
  | .overflow text => text
  | .outOfRange => "list index out of range"
  | .divisionByZero => "division by zero"

end DesignTokens
