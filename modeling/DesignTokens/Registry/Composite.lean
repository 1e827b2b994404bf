import DesignTokens.Registry.Scalar

namespace DesignTokens.Handler

/-!
# Handlers of composite values

Text styles, gradients, shadows, borders, transitions, keyframes and
animations.
-/

open DesignTokens.Text

/-- Text styles. -/
def typography : Handler where
  tag := "typography"
  name := "Typography"
  label := "TypographyHandler"
  priority := 90
  defaultNamespace := none
  composite := true
  detectNative _ := .ok false
  detectCompact context := .ok (startsWith "Font(".toList context.stripped)
  parseNative _ := .ok none
  parseCompact raw := do
    let style? ← Typography.parse raw
    return style?.map TokenValue.typography
  toText options value :=
    match value with
    | .typography style => do
        let declarations ← style.declarations
        if options.dialect = "scss" then
          return "(" ++ joinWith ", " declarations ++ ")"
        else return joinWith "; " declarations
    | other => .error (other.noMember "line_height")
  pathNamespace _ := none
  encode value := .ok value.encode
  decode data := (Typography.decode data).map TokenValue.typography

/--
Gradients; asked before shadows, so that a gradient under an
elevation path stays one.
-/
def gradient : Handler where
  tag := "gradient"
  name := "Gradient"
  label := "GradientHandler"
  priority := 86
  defaultNamespace := some "gradient"
  composite := true
  detectNative _ := .ok false
  detectCompact context := .ok (Gradient.startsLikeGradient context.stripped)
  parseNative data := do
    let gradient? ← Gradient.ofPaint data
    return gradient?.map TokenValue.gradient
  parseCompact raw := do
    let gradient? ← Gradient.parse raw
    return gradient?.map TokenValue.gradient
  toText _ value :=
    match value with
    | .gradient gradient => gradient.text
    | other => .error (other.noMember "stops")
  pathNamespace := namespaceWhenFirst ["gradient", "gradients"] "gradient"
  encode value := .ok value.encode
  decode data := (Gradient.decode data).map TokenValue.gradient

/-- One layer stands for itself, several are a list. -/
def shadowValue (layers : List Shadow) : TokenValue :=
  match layers with
  | [layer] => .shadow layer
  | layers => .shadows layers

/-- Whether a text under a path is a shadow; scalars under a shadow path are not. -/
def detectsShadow (context : CompactContext) : Bool :=
  let value := context.stripped
  if startsWith "Effect(".toList value then true
  else if !context.pathHas ["shadow", "elevation"] then false
  else !(isBareNumber value || startsWith ['#'] value)

/-- Shadows, of one layer or more. -/
def shadow : Handler where
  tag := "shadow"
  name := "Shadow"
  label := "ShadowHandler"
  priority := 85
  defaultNamespace := some "shadow"
  composite := true
  detectNative _ := .ok false
  detectCompact context := .ok (detectsShadow context)
  parseNative _ := .ok none
  parseCompact raw := do
    let layers? ← Shadow.parse raw
    return layers?.map shadowValue
  toText _ value :=
    match value with
    | .shadow layer => layer.text
    | .shadows layers => (layers.mapM Shadow.text).map (joinWith ", ")
    | .plain (.list []) => .ok ""
    | .plain (.list (first :: _)) => .error (.noMember first.kind "inset")
    | other => .error (other.noMember "inset")
  pathNamespace := namespaceWhenFirst ["shadows", "shadow", "elevation"] "shadow"
  encode value :=
    match value with
    | .plain (.list []) => .ok (.list [])
    | .plain (.list (first :: _)) => .error (.noMember first.kind "to_dict")
    | .plain other => .error (.noMember other.kind "to_dict")
    | other => .ok other.encode
  decode data :=
    match data with
    | .list items => (items.mapM Shadow.decode).map TokenValue.shadows
    | other => (Shadow.decode other).map TokenValue.shadow

/-- Borders; a path alone does not make one. -/
def border : Handler where
  tag := "border"
  name := "Border"
  label := "BorderHandler"
  priority := 65
  defaultNamespace := some "border"
  composite := true
  detectNative _ := .ok false
  detectCompact context := .ok (Border.startsLikeBorder context.stripped)
  parseNative _ := .ok none
  parseCompact raw := do
    let border? ← Border.parse raw
    return border?.map TokenValue.border
  toText _ value :=
    match value with
    | .border border => border.text
    | other => .error (other.noMember "width")
  pathNamespace := namespaceWhenFirst ["border", "borders"] "border"
  encode value := .ok value.encode
  decode data := (Border.decode data).map TokenValue.border

/-- Transitions. -/
def transition : Handler where
  tag := "transition"
  name := "Transition"
  label := "TransitionHandler"
  priority := 50
  defaultNamespace := none
  composite := true
  detectNative _ := .ok false
  detectCompact context :=
    .ok (context.pathHas ["transition"] &&
      (words context.stripped).any Duration.isExplicit)
  parseNative _ := .ok none
  parseCompact raw := .ok ((Transition.parse raw).map TokenValue.transition)
  toText _ value :=
    match value with
    | .transition transition => transition.text
    | other => .error (other.noMember "duration")
  pathNamespace _ := none
  encode value := .ok value.encode
  decode data := (Transition.decode data).map TokenValue.transition

/-- Keyframes; asked before animations, whose paths they share. -/
def keyframes : Handler where
  tag := "keyframes"
  name := "Keyframes"
  label := "KeyframesHandler"
  priority := 49
  defaultNamespace := none
  composite := true
  detectNative _ := .ok false
  detectCompact context :=
    .ok (context.pathHas ["keyframe"] ||
      (context.pathHas ["animation"] && context.value.toList.contains '%' &&
        context.value.toList.contains ':'))
  parseNative _ := .ok none
  parseCompact raw := .ok ((Keyframes.parse raw).map TokenValue.keyframes)
  toText _ value :=
    match value with
    | .keyframes keyframes => .ok keyframes.text
    | other => .error (other.noMember "steps")
  pathNamespace _ := none
  encode value := .ok value.encode
  decode data := (Keyframes.decode data).map TokenValue.keyframes

/-- Animation shorthands. -/
def animation : Handler where
  tag := "animation"
  name := "Animation"
  label := "AnimationHandler"
  priority := 48
  defaultNamespace := some "animation"
  composite := true
  detectNative _ := .ok false
  detectCompact context :=
    let value := lowerChars context.stripped
    .ok (context.pathHas ["animation"] && !context.pathHas ["keyframe"] &&
      ["ms", "s", "ease", "linear", "infinite"].any
        (fun hint => contains hint.toList value))
  parseNative _ := .ok none
  parseCompact raw := do
    let animation? ← Animation.parse raw
    return animation?.map TokenValue.animation
  toText _ value :=
    match value with
    | .animation animation => animation.text
    | other => .error (other.noMember "name")
  pathNamespace _ := some "animation"
  encode value := .ok value.encode
  decode data := (Animation.decode data).map TokenValue.animation

/--
The sixteen handlers of this library, in the order in which they are registered.
-/
def builtins : List Handler :=
  [ color, typography, gradient, shadow, dimension, fontWeight, fontFamily, border,
    duration,
    cubicBezier, boolean, transition, keyframes, animation, number, string ]

end DesignTokens.Handler
