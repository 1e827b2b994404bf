import DesignTokens.Registry.Handler

namespace DesignTokens.Handler

/-!
# Handlers of scalar values

Colors, lengths, times, curves, font weights and families, numbers, truth
values, and texts, which take whatever nothing else claims.
-/

open DesignTokens.Text

/-- Whether a text starts with one of the given texts. -/
def startsWithAny (starts : List String) (chars : List Char) : Bool :=
  starts.any (fun start => startsWith start.toList chars)

/-- The members of an object as doubles; `none` when one is no number. -/
def colorOfMembers (r g b a : Wire) : Except Fault (Option Color) := do
  let read : Except Fault Color := do
    let r ← r.toFloat
    let g ← g.toFloat
    let b ← b.toFloat
    let a ← a.toFloat
    return Color.ofFloats r g b a
  match read with
  | .ok color => return some color
  | .error (.overflow text) => throw (.overflow text)
  | .error _ => return none

/-- Reads a color object with at least three channels. -/
def colorOfNative (data : Wire) : Except Fault (Option Color) :=
  match data with
  | .obj members =>
      match Wire.lookup? "r" members, Wire.lookup? "g" members,
        Wire.lookup? "b" members with
      | some r, some g, some b =>
          colorOfMembers r g b ((Wire.lookup? "a" members).getD (.float 1.0))
      | _, _, _ => .ok none
  | _ => .ok none

/-- Whether a text under a path is a color. -/
def detectsColor (context : CompactContext) : Except Fault Bool :=
  let value := String.ofList (lowerChars context.stripped)
  if startsWith ['#'] value.toList then
    if containsText "gradient" value then .ok false
    else (Color.parse value).map Option.isSome
  else if startsWithAny ["rgb", "hsl", "oklch"] value.toList then
    (Color.parse value).map Option.isSome
  else if Wire.has value Color.named || Color.keywords.contains value then
    .ok (!context.pathHas ["weight", "font"])
  else .ok false

/-- Colors, from objects with channels or from written colors. -/
def color : Handler where
  tag := "color"
  name := "Color"
  label := "ColorHandler"
  priority := 100
  defaultNamespace := some "color"
  composite := false
  detectNative context := .ok (context.resolvedType.isText "COLOR")
  detectCompact := detectsColor
  parseNative data := do
    let color? ← colorOfNative data
    return color?.map TokenValue.color
  parseCompact raw := do
    let color? ← Color.parse raw
    return color?.map TokenValue.color
  toText options value :=
    match value with
    | .color color => color.toText options.colorFormat
    | other =>
        if ["hex", "rgb", "hsl", "oklch"].contains options.colorFormat then
          .error (other.noMember "r")
        else .error (.badValue (Color.unsupportedFormat options.colorFormat))
  pathNamespace := namespaceWhenFirst ["colors", "color"] "color"
  encode value := .ok value.encode
  decode data := (Color.decode data).map TokenValue.color

/-- Scopes of variables that are lengths. -/
def lengthScopes : List String :=
  [ "CORNER_RADIUS", "WIDTH_HEIGHT", "GAP", "STROKE_FLOAT", "FONT_SIZE",
    "LINE_HEIGHT", "LETTER_SPACING", "PARAGRAPH_SPACING", "PARAGRAPH_INDENT" ]

/--
Whether one of the scopes is that of a length; a scope must be usable as a key.
-/
def anyLengthScope : List Wire → Except Fault Bool
  | [] => .ok false
  | scope :: rest =>
      if !scope.isKey then .error scope.keyFault
      else
        match scope with
        | .str name =>
            if lengthScopes.contains name then .ok true else anyLengthScope rest
        | _ => anyLengthScope rest

/-- A number as a double; truth values are no numbers here. -/
def strictFloat? (data : Wire) : Except Fault (Option Float) :=
  match data with
  | .int whole => (Number.ofInt? whole).map some
  | .float number => .ok (some number)
  | _ => .ok none

/-- Whether a text under a path is a length. -/
def detectsDimension (context : CompactContext) : Bool :=
  let value := context.stripped
  if isBareNumber value then
    !context.pathHas ["lineheight", "line-height"] &&
      context.pathHas ["spacing", "radius", "gap", "size", "width", "height"]
  else Dimension.hasUnit value

/-- The namespace of a length under a path. -/
def dimensionNamespace (path : List String) : Option String :=
  match path with
  | [] => none
  | first :: _ =>
      let hint := lower first
      let segments := path.map lower
      let anyHas (hints : List String) : Bool :=
        segments.any
          (fun segment => hints.any (fun hint => containsText hint segment))
      if ["spacing", "space"].contains hint then some "spacing"
      else if ["radius", "border-radius", "radii"].contains hint then some "radius"
      else if ["font", "typography"].contains hint then
        if anyHas ["size"] then some "font-size"
        else if anyHas ["height", "leading"] then some "line-height"
        else if anyHas ["spacing", "tracking"] then some "letter-spacing"
        else none
      else none

/-- Lengths. -/
def dimension : Handler where
  tag := "dimension"
  name := "Dimension"
  label := "DimensionHandler"
  priority := 80
  defaultNamespace := some "spacing"
  composite := false
  detectNative context :=
    if context.resolvedType.isText "FLOAT" then anyLengthScope context.scopes
    else .ok false
  detectCompact context := .ok (detectsDimension context)
  parseNative data := do
    let number? ← strictFloat? data
    return number?.map (fun number => .dimension (Dimension.px number))
  parseCompact raw := .ok ((Dimension.parse raw "px").map TokenValue.dimension)
  toText _ value := value.display
  pathNamespace := dimensionNamespace
  encode value := .ok value.encode
  decode data := (Dimension.decode data).map TokenValue.dimension

/-- Font weights. -/
def fontWeight : Handler where
  tag := "fontWeight"
  name := "Font Weight"
  label := "FontWeightHandler"
  priority := 75
  defaultNamespace := some "font-weight"
  composite := false
  detectNative context :=
    .ok (context.resolvedType.isText "FLOAT" && context.hasScope "FONT_WEIGHT")
  detectCompact context :=
    if context.pathHas ["weight", "typography", "font", "text"] then
      FontWeight.isWeightText context.value
    else .ok false
  parseNative data := do
    let weight? ← FontWeight.parse data
    return weight?.map (fun weight => .plain (.int (Int.ofNat weight)))
  parseCompact raw := do
    let weight? ← FontWeight.parse (.str raw)
    return weight?.map (fun weight => .plain (.int (Int.ofNat weight)))
  toText _ value := FontWeight.text value.encode
  pathNamespace _ := some "font-weight"
  encode value := .ok value.encode
  decode data := .ok (.plain data)

/-- Whether a text is a number, possibly in pixels. -/
def isPixelCount (chars : List Char) : Bool :=
  match Number.scanUnsigned? chars with
  | some (_, []) => true
  | some (_, ['p', 'x']) => true
  | _ => false

/-- Whether a text under a path is a font stack. -/
def detectsFontFamily (context : CompactContext) : Bool :=
  if context.pathHas ["family"] then context.pathHas ["font"]
  else
    let value := context.stripped
    if startsWithAny ["Font(", "Effect(", "#"] value then false
    else if isPixelCount value then false
    else context.pathHas ["font"]

/-- Reads a font stack; one without names is unreadable. -/
def readFontFamily (raw : String) : Option TokenValue :=
  match FontFamily.split raw with
  | [] => none
  | names => some (.fontFamily (names.map Wire.str))

/-- Font stacks. -/
def fontFamily : Handler where
  tag := "fontFamily"
  name := "Font Family"
  label := "FontFamilyHandler"
  priority := 70
  defaultNamespace := some "font-family"
  composite := false
  detectNative context :=
    .ok (context.resolvedType.isText "STRING" && context.hasScope "FONT_FAMILY")
  detectCompact context := .ok (detectsFontFamily context)
  parseNative data :=
    match data with
    | .str text => .ok (readFontFamily text)
    | _ => .ok none
  parseCompact raw := .ok (readFontFamily raw)
  toText _ value :=
    match value with
    | .plain (.str text) => FontFamily.format [.str text]
    | .fontFamily names => FontFamily.format names
    | other => do
        let names ← other.encode.parts
        FontFamily.format names
  pathNamespace _ := some "font-family"
  encode value := do
    let names ← value.encode.parts
    return .list names
  decode data :=
    match data with
    | .str text => .ok (.fontFamily ((FontFamily.split text).map Wire.str))
    | other => (other.parts).map TokenValue.fontFamily

/-- Time spans. -/
def duration : Handler where
  tag := "duration"
  name := "Duration"
  label := "DurationHandler"
  priority := 60
  defaultNamespace := some "transition-duration"
  composite := false
  detectNative _ := .ok false
  detectCompact context := .ok (Duration.isExplicit context.stripped)
  parseNative data := do
    let number? ← strictFloat? data
    return number?.map (fun number => .duration ⟨.float number, .str "ms"⟩)
  parseCompact raw := .ok ((Duration.parse raw).map TokenValue.duration)
  toText _ value := value.display
  pathNamespace :=
    namespaceWhenFirst ["duration", "timing", "animation"] "transition-duration"
  encode value := .ok value.encode
  decode data := (Duration.decode data).map TokenValue.duration

/--
The curve of a list of coordinates; missing ones are those of a straight line.
-/
def curveOfNative (data : Wire) : Except Fault (Option CubicBezier) :=
  match data with
  | .list items => do
      let points :=
        items ++ ([.int 0, .int 0, .int 1, .int 1] : List Wire).drop items.length
      let coordinates ← (points.take 4).mapM Wire.toFloat
      match coordinates with
      | [x1, y1, x2, y2] => return some ⟨.float x1, .float y1, .float x2, .float y2⟩
      | _ => return none
  | _ => .ok none

/-- Easing curves. -/
def cubicBezier : Handler where
  tag := "cubicBezier"
  name := "Cubic Bezier"
  label := "CubicBezierHandler"
  priority := 55
  defaultNamespace := some "transition-timing-function"
  composite := false
  detectNative _ := .ok false
  detectCompact context := .ok (startsWith "cubic-bezier(".toList context.stripped)
  parseNative data := do
    let curve? ← curveOfNative data
    return curve?.map TokenValue.cubicBezier
  parseCompact raw := .ok ((CubicBezier.parse raw).map TokenValue.cubicBezier)
  toText _ value := value.display
  pathNamespace :=
    namespaceWhenFirst ["easing", "timing", "animation"]
      "transition-timing-function"
  encode value := .ok value.encode
  decode data := (CubicBezier.decode data).map TokenValue.cubicBezier

/-- Unitless numbers. -/
def number : Handler where
  tag := "number"
  name := "Number"
  label := "NumberHandler"
  priority := 20
  defaultNamespace := none
  composite := false
  detectNative context := .ok (context.resolvedType.isText "FLOAT")
  detectCompact context := .ok (isNumberText context.value)
  parseNative data := do
    let number? ← strictFloat? data
    return number?.map (fun number => .plain (.float number))
  parseCompact raw :=
    .ok ((bareNumber? raw).map (fun number => .plain (.float number)))
  toText _ value :=
    match value with
    | .plain data => .ok data.shortText
    | other => other.display
  pathNamespace _ := none
  encode value := .ok value.encode
  decode data := .ok (.plain data)

/-- The truth value that a text stands for, case and blanks around it aside. -/
def truthOf? (raw : String) : Option Bool :=
  let word := String.ofList (lowerChars (trimChars raw.toList))
  if word = "true" then some true
  else if word = "false" then some false
  else none

/-- Truth values. -/
def boolean : Handler where
  tag := "boolean"
  name := "Boolean"
  label := "BooleanHandler"
  priority := 50
  defaultNamespace := none
  composite := false
  detectNative context := .ok (context.resolvedType.isText "BOOLEAN")
  detectCompact context := .ok (truthOf? context.value).isSome
  parseNative data :=
    match data with
    | .bool truth => .ok (some (.plain (.bool truth)))
    | _ => .ok none
  parseCompact raw := .ok ((truthOf? raw).map (fun truth => .plain (.bool truth)))
  toText _ value :=
    match value with
    | .plain data => .ok (if data.isTruthy then "true" else "false")
    | _ => .ok "true"
  pathNamespace _ := none
  encode value := .ok value.encode
  decode data := .ok (.plain data)

/-- Texts; every value is one. -/
def string : Handler where
  tag := "string"
  name := "String"
  label := "StringHandler"
  priority := 10
  defaultNamespace := none
  composite := false
  detectNative context := .ok (context.resolvedType.isText "STRING")
  detectCompact _ := .ok true
  parseNative data := .ok (some (.plain (.str data.display)))
  parseCompact raw := .ok (some (.plain (.str raw)))
  toText _ value := value.display
  pathNamespace _ := none
  encode value := .ok value.encode
  decode data := .ok (.plain data)

end DesignTokens.Handler
