import DesignTokens.Proofs.Registry.Handlers
import DesignTokens.Proofs.Value.Documents

namespace DesignTokens

/-!
# Values of a type as documents

The values that the document form of each type gives back, and the normal form
of the other ones.  Which handler reads and writes a value is decided by the
type tag alone, except for references, which look the same under every tag.
-/

namespace Registry

/-- A value that is no reference is written by the handler of its tag. -/
theorem encodeValue_of_notReference
    {registry : Registry}
    {tag : Wire}
    {value : TokenValue}
    (noReference : value.reference? = none) :
    registry.encodeValue tag value =
      (do
        let handler ← registry.get tag
        handler.encode value) := by
  cases value with
  | reference => cases noReference
  | _ => rfl

/--
A value that is no reference is written under the tag of a handler
of this library.
-/
theorem encodeValue_builtin
    {handler : Handler}
    {value : TokenValue}
    (isBuiltin : handler ∈ Handler.builtins)
    (noReference : value.reference? = none) :
    standard.encodeValue (.str handler.tag) value =
      liftM (handler.encode value) := by
  rw [encodeValue_of_notReference noReference, get_standard isBuiltin, ok_bind]

/-- A form that does not look like a reference is read by the handler of its tag. -/
theorem decodeValue_builtin
    {handler : Handler}
    {data : Wire}
    (isBuiltin : handler ∈ Handler.builtins)
    (unmarked : Wire.lookup? "$ref" data.members = none) :
    standard.decodeValue (.str handler.tag) data = liftM (handler.decode data) := by
  rw [decodeValue, unmarked, get_standard isBuiltin]
  rfl

end Registry

namespace TokenValue

/-- The tags of the types whose values are kept as they are written. -/
def plainTags : List String :=
  [Handler.number.tag, Handler.boolean.tag, Handler.string.tag,
    Handler.fontWeight.tag]

/-- The values that are canonical for a type. -/
inductive Canonical : Wire → TokenValue → Prop
  /-- A reference stands under any type. -/
  | reference {tag : Wire} {target : Reference} :
      ¬ Reference.Braced target.path → Canonical tag (.reference target)
  /-- A number, a truth value, a text or a weight must not look like a reference. -/
  | plain {tag : String} {value : Wire} :
      tag ∈ plainTags → Wire.lookup? "$ref" value.members = none →
        Canonical (.str tag) (.plain value)
  | color (value : Color) : Canonical (.str Handler.color.tag) (.color value)
  | dimension (value : Dimension) : Canonical (.str Handler.dimension.tag)
      (.dimension value)
  | duration (value : Duration) : Canonical (.str Handler.duration.tag)
      (.duration value)
  | cubicBezier (value : CubicBezier) :
      Canonical (.str Handler.cubicBezier.tag) (.cubicBezier value)
  | fontFamily (names : List Wire) : Canonical (.str Handler.fontFamily.tag)
      (.fontFamily names)
  | typography {value : Typography} :
      value.lineHeight.Canonical →
        Canonical (.str Handler.typography.tag) (.typography value)
  | shadow {layer : Shadow} :
      layer.Canonical → Canonical (.str Handler.shadow.tag) (.shadow layer)
  | shadows {layers : List Shadow} :
      (∀ layer ∈ layers, layer.Canonical) → Canonical (.str Handler.shadow.tag)
      (.shadows layers)
  | border (value : Border) : Canonical (.str Handler.border.tag) (.border value)
  | gradient (value : Gradient) : Canonical (.str Handler.gradient.tag)
      (.gradient value)
  | transition (value : Transition) : Canonical (.str Handler.transition.tag)
      (.transition value)
  | animation {value : Animation} :
      value.Canonical → Canonical (.str Handler.animation.tag) (.animation value)
  | keyframes {value : Keyframes} :
      value.Canonical → Canonical (.str Handler.keyframes.tag) (.keyframes value)

/-- The form of a canonical value that is no reference does not look like one. -/
theorem Canonical.unmarked
    {tag : Wire}
    {value : TokenValue}
    (canonical : value.Canonical tag)
    (noReference : value.reference? = none) :
    Wire.lookup? "$ref" value.encode.members = none := by
  cases canonical with
  | reference => cases noReference
  | plain _ unmarked => exact unmarked
  | typography _ =>
      rename_i style _
      rcases style with ⟨family, size, weight, lineHeight, _ | spacing⟩ <;> rfl
  | shadow layerCanonical =>
      rename_i layer
      obtain ⟨truth, isTruth⟩ := layerCanonical
      rcases layer with ⟨offsetX, offsetY, blur, color, _ | spread, inset⟩
      all_goals
        obtain rfl : inset = .bool truth := isTruth
        cases truth <;> rfl
  | gradient value =>
      rcases value with ⟨type, stops, angle⟩
      cases angle <;> rfl
  | transition value => rcases value with ⟨duration, timing, _ | delay⟩ <;> rfl
  | animation _ =>
      rename_i value _
      rcases value with
        ⟨name, duration, _ | timing, _ | delay, iterationCount, direction, fillMode,
          playState⟩
      all_goals
        simp [encode, Animation.encode, Wire.object, Wire.members, Wire.lookup?,
          Wire.lookup?_append, Gradient.lookup?_optionalMember]
  | keyframes stepsCanonical => exact stepsCanonical.unmarked
  | _ => rfl

/-- A canonical value is written as its document form. -/
theorem encodeValue_of_canonical
    {tag : Wire}
    {value : TokenValue}
    (canonical : value.Canonical tag) :
    Registry.standard.encodeValue tag value = .ok value.encode := by
  cases canonical with
  | reference => rfl
  | plain isPlain _ =>
      simp only [plainTags, List.mem_cons, List.not_mem_nil, or_false] at isPlain
      rcases isPlain with rfl | rfl | rfl | rfl
      all_goals exact Registry.encodeValue_builtin (by simp [Handler.builtins]) rfl
  | _ => exact Registry.encodeValue_builtin (by simp [Handler.builtins]) rfl

/-- A form that the handler of its tag reads as a value is read as that value. -/
private theorem decodeValue_of_decode
    {handler : Handler}
    {data : Wire}
    {value : TokenValue}
    (isBuiltin : handler ∈ Handler.builtins)
    (unmarked : Wire.lookup? "$ref" data.members = none)
    (readBack : handler.decode data = .ok value) :
    Registry.standard.decodeValue (.str handler.tag) data = .ok value := by
  rw [Registry.decodeValue_builtin isBuiltin unmarked, readBack]
  rfl

/-- A canonical value is read back from its document form. -/
theorem decodeValue_of_canonical
    {tag : Wire}
    {value : TokenValue}
    (canonical : value.Canonical tag) :
    Registry.standard.decodeValue tag value.encode = .ok value := by
  have unmarked := canonical.unmarked
  cases canonical with
  | reference bare =>
      simp [-bind_pure_comp, Registry.decodeValue, encode, Reference.encode,
        Wire.object, Wire.members, Wire.lookup?, Reference.decodePath_path bare]
      rfl
  | plain isPlain _ =>
      simp only [plainTags, List.mem_cons, List.not_mem_nil, or_false] at isPlain
      rcases isPlain with rfl | rfl | rfl | rfl
      all_goals
        exact decodeValue_of_decode (by simp [Handler.builtins]) (unmarked rfl) rfl
  | typography heightCanonical =>
      exact decodeValue_of_decode (by simp [Handler.builtins]) (unmarked rfl)
        (map_eq_ok_iff.mpr ⟨_, Typography.decode_encode heightCanonical, rfl⟩)
  | shadow layerCanonical =>
      exact decodeValue_of_decode (by simp [Handler.builtins]) (unmarked rfl)
        (map_eq_ok_iff.mpr ⟨_, Shadow.decode_encode layerCanonical, rfl⟩)
  | shadows layersCanonical =>
      have layersRead :=
        mapM_map (fun layer isLayer =>
          Shadow.decode_encode (layersCanonical layer isLayer))
      exact decodeValue_of_decode (by simp [Handler.builtins]) (unmarked rfl)
        (map_eq_ok_iff.mpr ⟨_, layersRead, rfl⟩)
  | gradient value =>
      exact decodeValue_of_decode (by simp [Handler.builtins]) (unmarked rfl)
        (map_eq_ok_iff.mpr ⟨_, value.decode_encode, rfl⟩)
  | transition value =>
      exact decodeValue_of_decode (by simp [Handler.builtins]) (unmarked rfl)
        (map_eq_ok_iff.mpr ⟨_, value.decode_encode, rfl⟩)
  | animation animationCanonical =>
      exact decodeValue_of_decode (by simp [Handler.builtins]) (unmarked rfl)
        (map_eq_ok_iff.mpr ⟨_, Animation.decode_encode animationCanonical, rfl⟩)
  | keyframes stepsCanonical =>
      exact decodeValue_of_decode (by simp [Handler.builtins]) (unmarked rfl)
        (map_eq_ok_iff.mpr ⟨_, Keyframes.decode_encode stepsCanonical, rfl⟩)
  | _ => exact decodeValue_of_decode (by simp [Handler.builtins]) (unmarked rfl) rfl

/-- The canonical value with the same document form. -/
def normal : TokenValue → TokenValue
  | .shadow layer => .shadow layer.normal
  | .shadows layers => .shadows (layers.map Shadow.normal)
  | .keyframes value => .keyframes value.normal
  | other => other

/-- A value has the form of its normal form. -/
@[simp] theorem encode_normal
    (value : TokenValue) :
    value.normal.encode = value.encode := by
  cases value with
  | shadow layer => exact layer.encode_normal
  | shadows layers => simp [normal, encode, Shadow.encode_normal]
  | keyframes steps => exact steps.encode_normal
  | _ => rfl

/-- A handler of this library writes a value as its normal form. -/
private theorem handler_encode_normal
    {handler : Handler}
    (isBuiltin : handler ∈ Handler.builtins)
    (value : TokenValue) :
    handler.encode value.normal = handler.encode value := by
  simp only [Handler.builtins, List.mem_cons, List.not_mem_nil,
    or_false] at isBuiltin
  rcases isBuiltin with
    rfl | rfl | rfl | isShadow | rfl | rfl | isFontFamily | rfl | rfl | rfl |
    rfl | rfl | rfl | rfl | rfl | rfl
  -- All handlers but two write any value as its document form.
  all_goals try exact congrArg Except.ok value.encode_normal
  · subst isShadow
    cases value <;>
      simp [Handler.shadow, normal, encode, Shadow.encode_normal,
        Keyframes.encode_normal]
  · subst isFontFamily
    simp only [Handler.fontFamily, encode_normal]

/-- The normal form of a value that is no reference is none either. -/
private theorem reference?_normal
    {value : TokenValue}
    (noReference : value.reference? = none) :
    value.normal.reference? = none := by
  cases value with
  | reference => cases noReference
  | _ => rfl

/-- A value is written as its normal form is. -/
theorem encodeValue_normal
    (tag : Wire)
    (value : TokenValue) :
    Registry.standard.encodeValue tag value.normal =
      Registry.standard.encodeValue tag value := by
  cases isReference : value.reference? with
  | some target =>
      cases value with
      | reference => rfl
      | _ => cases isReference
  | none =>
      rw [Registry.encodeValue_of_notReference (reference?_normal isReference),
        Registry.encodeValue_of_notReference isReference]
      cases isFound : Registry.standard.get tag with
      | error cause => rfl
      | ok handler =>
          have isBuiltin := (Registry.get_standard_eq_ok isFound).2
          rw [ok_bind, ok_bind, handler_encode_normal isBuiltin]

/--
The normal form of a value that a handler of this library has read is
canonical for its type.
-/
private theorem canonical_normal_of_decode
    {handler : Handler}
    {data : Wire}
    {value : TokenValue}
    (isBuiltin : handler ∈ Handler.builtins)
    (unmarked : Wire.lookup? "$ref" data.members = none)
    (decoded : handler.decode data = .ok value) :
    value.normal.Canonical (.str handler.tag) := by
  simp only [Handler.builtins, List.mem_cons, List.not_mem_nil,
    or_false] at isBuiltin
  rcases isBuiltin with
    rfl | rfl | rfl | rfl | rfl | rfl | rfl | rfl | rfl | rfl | rfl | rfl |
    rfl | rfl | rfl | rfl
  · obtain ⟨color, _, rfl⟩ := map_eq_ok_iff.mp decoded
    exact .color color
  · obtain ⟨style, styleRead, rfl⟩ := map_eq_ok_iff.mp decoded
    exact .typography (Typography.canonical_of_decode styleRead)
  · obtain ⟨gradient, _, rfl⟩ := map_eq_ok_iff.mp decoded
    exact .gradient gradient
  · simp only [Handler.shadow] at decoded
    split at decoded
    · obtain ⟨layers, _, rfl⟩ := map_eq_ok_iff.mp decoded
      refine .shadows (fun layer isLayer => ?_)
      obtain ⟨original, _, rfl⟩ := List.mem_map.mp isLayer
      exact original.canonical_normal
    · obtain ⟨layer, _, rfl⟩ := map_eq_ok_iff.mp decoded
      exact .shadow layer.canonical_normal
  · obtain ⟨length, _, rfl⟩ := map_eq_ok_iff.mp decoded
    exact .dimension length
  · obtain rfl := Except.ok.inj decoded
    exact .plain (by simp [plainTags]) unmarked
  · simp only [Handler.fontFamily] at decoded
    split at decoded
    · obtain rfl := Except.ok.inj decoded
      exact .fontFamily _
    · obtain ⟨names, _, rfl⟩ := map_eq_ok_iff.mp decoded
      exact .fontFamily names
  · obtain ⟨border, _, rfl⟩ := map_eq_ok_iff.mp decoded
    exact .border border
  · obtain ⟨span, _, rfl⟩ := map_eq_ok_iff.mp decoded
    exact .duration span
  · obtain ⟨curve, _, rfl⟩ := map_eq_ok_iff.mp decoded
    exact .cubicBezier curve
  · obtain rfl := Except.ok.inj decoded
    exact .plain (by simp [plainTags]) unmarked
  · obtain ⟨transition, _, rfl⟩ := map_eq_ok_iff.mp decoded
    exact .transition transition
  · obtain ⟨keyframes, stepsRead, rfl⟩ := map_eq_ok_iff.mp decoded
    refine .keyframes (Keyframes.canonical_normal ?_)
    rw [Keyframes.selectors_of_decode stepsRead]
    exact Wire.lookup?_eq_none_iff.mp unmarked
  · obtain ⟨animation, animationRead, rfl⟩ := map_eq_ok_iff.mp decoded
    exact .animation (Animation.canonical_of_decode animationRead)
  · obtain rfl := Except.ok.inj decoded
    exact .plain (by simp [plainTags]) unmarked
  · obtain rfl := Except.ok.inj decoded
    exact .plain (by simp [plainTags]) unmarked

/--
The normal form of a value that was read is canonical for the type under
which it was read.
-/
theorem canonical_normal_of_decodeValue
    {tag data : Wire}
    {value : TokenValue}
    (decoded : Registry.standard.decodeValue tag data = .ok value)
    (bare :
      ∀ text, Wire.lookup? "$ref" data.members = some (.str text) →
        ¬ Reference.Braced (Reference.ofText text).path) :
    value.normal.Canonical tag := by
  unfold Registry.decodeValue at decoded
  split at decoded
  · rename_i target isMarked
    obtain ⟨reference, targetRead, decoded⟩ := bind_eq_ok_iff.mp decoded
    obtain rfl := pure_eq_ok_iff.mp decoded
    cases target with
    | str text =>
        obtain rfl := Except.ok.inj (lift_eq_ok_iff.mp targetRead)
        exact .reference (bare text isMarked)
    | _ => cases targetRead
  · rename_i unmarked
    obtain ⟨handler, isFound, valueRead⟩ := bind_eq_ok_iff.mp decoded
    obtain ⟨rfl, isBuiltin⟩ := Registry.get_standard_eq_ok isFound
    exact canonical_normal_of_decode isBuiltin unmarked
      (lift_eq_ok_iff.mp valueRead)

end TokenValue

end DesignTokens
