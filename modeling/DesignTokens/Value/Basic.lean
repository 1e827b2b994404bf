import DesignTokens.Value.Animation
import DesignTokens.Value.Border
import DesignTokens.Value.Reference

namespace DesignTokens

/-!
# Token values

The value of a token is one of the composite values, a reference, or a plain
document value.
-/

/-- The value of a token. -/
inductive TokenValue where
  /-- A number, a truth value, a text, or a value that was never decoded. -/
  | plain (value : Wire)
  | color (value : Color)
  | dimension (value : Dimension)
  | duration (value : Duration)
  | cubicBezier (value : CubicBezier)
  | fontFamily (names : List Wire)
  | typography (value : Typography)
  | shadow (layer : Shadow)
  /-- Shadow layers, outermost first. -/
  | shadows (layers : List Shadow)
  | border (value : Border)
  | gradient (value : Gradient)
  | transition (value : Transition)
  | animation (value : Animation)
  | keyframes (value : Keyframes)
  | reference (target : Reference)
  deriving Inhabited

namespace TokenValue

/-- The reference, if the value is one. -/
def reference? : TokenValue → Option Reference
  | .reference target => some target
  | _ => none

/-- Whether the value points at another token. -/
def isReference (value : TokenValue) : Bool :=
  value.reference?.isSome

/-- The document form. -/
def encode : TokenValue → Wire
  | .plain value => value
  | .color value => value.encode
  | .dimension value => value.encode
  | .duration value => value.encode
  | .cubicBezier value => value.encode
  | .fontFamily names => .list names
  | .typography value => value.encode
  | .shadow layer => layer.encode
  | .shadows layers => .list (layers.map Shadow.encode)
  | .border value => value.encode
  | .gradient value => value.encode
  | .transition value => value.encode
  | .animation value => value.encode
  | .keyframes value => value.encode
  | .reference target => target.encode

/-- The value inside a sentence. -/
def display : TokenValue → Except Fault String
  | .dimension value => value.text
  | .duration value => value.text
  | .cubicBezier value => value.text
  | value => .ok value.encode.display

/-- The kind of the value, for a fault. -/
def kind (value : TokenValue) : String :=
  value.encode.kind

/-- The fault of a value that has no such part. -/
def noMember (value : TokenValue) (member : String) : Fault :=
  .noMember value.kind member

end TokenValue

end DesignTokens
