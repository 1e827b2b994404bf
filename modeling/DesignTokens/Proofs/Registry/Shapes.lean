import DesignTokens.Proofs.Registry.Detection
import DesignTokens.Proofs.Registry.Documents
import DesignTokens.Proofs.Value.Shapes

namespace DesignTokens

/-!
# Values in the shape of their type

A handler reads a text, or the value of a design variable, only as a value in
the shape of its own type.  Such values are read back from their documents;
only keyframes may hold names that documents cannot tell apart.
-/

/-- Whether a value without structure is in the shape of a type. -/
def Wire.Shaped (tag : String) : Wire → Prop
  | .float _ => tag = "number"
  | .bool _ => tag = "boolean"
  | .str _ => tag = "string"
  | .int whole =>
      tag = "fontWeight" ∧ ∃ weight ∈ FontWeight.weights, whole = Int.ofNat weight
  | _ => False

/--
The types whose values have no structure are those whose values are
kept as they are.
-/
theorem Wire.Shaped.mem_plainTags
    {tag : String}
    {value : Wire}
    (shaped : value.Shaped tag) :
    tag ∈ TokenValue.plainTags := by
  cases value with
  | int whole =>
      obtain ⟨rfl, _⟩ := shaped
      decide
  | bool truth =>
      obtain rfl : tag = "boolean" := shaped
      decide
  | float number =>
      obtain rfl : tag = "number" := shaped
      decide
  | str text =>
      obtain rfl : tag = "string" := shaped
      decide
  | _ => exact shaped.elim

/--
A value without structure that is in the shape of a type does not look
like a reference.
-/
theorem Wire.Shaped.unmarked
    {tag : String}
    {value : Wire}
    (shaped : value.Shaped tag) :
    Wire.lookup? "$ref" value.members = none := by
  cases value with
  | list items => exact shaped.elim
  | obj members => exact shaped.elim
  | _ => rfl

namespace TokenValue

/--
Whether a value is in the shape of a type.  Every composite type has values of
its own kind; a font stack names at least one family, and several layers of a
shadow are at least two.  A reference has no shape.
-/
def Shaped (tag : String) : TokenValue → Prop
  | .plain value => value.Shaped tag
  | .color _ => tag = "color"
  | .dimension _ => tag = "dimension"
  | .duration _ => tag = "duration"
  | .cubicBezier _ => tag = "cubicBezier"
  | .fontFamily names =>
      tag = "fontFamily" ∧ names ≠ [] ∧ ∀ name ∈ names, ∃ text, name = .str text
  | .typography value => tag = "typography" ∧ value.lineHeight.Canonical
  | .shadow layer => tag = "shadow" ∧ layer.Canonical
  | .shadows layers =>
      tag = "shadow" ∧ 2 ≤ layers.length ∧ ∀ layer ∈ layers, layer.Canonical
  | .border _ => tag = "border"
  | .gradient _ => tag = "gradient"
  | .transition _ => tag = "transition"
  | .animation value => tag = "animation" ∧ value.Canonical
  | .keyframes _ => tag = "keyframes"
  | .reference _ => False

/--
A value in the shape of a type is canonical for it, keyframes as
far as they are.
-/
theorem Shaped.canonical
    {tag : String}
    {value : TokenValue}
    (shaped : value.Shaped tag)
    (stepsCanonical : ∀ steps, value = .keyframes steps → steps.Canonical) :
    value.Canonical (.str tag) := by
  cases value with
  | plain plainValue =>
      have plainShaped : plainValue.Shaped tag := shaped
      exact .plain plainShaped.mem_plainTags plainShaped.unmarked
  | color value =>
      obtain rfl : tag = "color" := shaped
      exact .color value
  | dimension value =>
      obtain rfl : tag = "dimension" := shaped
      exact .dimension value
  | duration value =>
      obtain rfl : tag = "duration" := shaped
      exact .duration value
  | cubicBezier value =>
      obtain rfl : tag = "cubicBezier" := shaped
      exact .cubicBezier value
  | fontFamily names =>
      obtain ⟨rfl, _⟩ := shaped
      exact .fontFamily names
  | typography value =>
      obtain ⟨rfl, canonical⟩ := shaped
      exact .typography canonical
  | shadow layer =>
      obtain ⟨rfl, canonical⟩ := shaped
      exact .shadow canonical
  | shadows layers =>
      obtain ⟨rfl, _, canonical⟩ := shaped
      exact .shadows canonical
  | border value =>
      obtain rfl : tag = "border" := shaped
      exact .border value
  | gradient value =>
      obtain rfl : tag = "gradient" := shaped
      exact .gradient value
  | transition value =>
      obtain rfl : tag = "transition" := shaped
      exact .transition value
  | animation value =>
      obtain ⟨rfl, canonical⟩ := shaped
      exact .animation canonical
  | keyframes steps =>
      obtain rfl : tag = "keyframes" := shaped
      exact .keyframes (stepsCanonical steps rfl)
  | reference target => exact shaped.elim

end TokenValue

/--
A token of a known type, whose value is a reference or in the shape of the type.
-/
def Token.Shaped (token : Token) : Prop :=
  ∃ tag, token.type = .str tag ∧ Registry.standard.has tag = true ∧
    (token.value.isReference = true ∨ token.value.Shaped tag)

namespace Handler

/-- A value that is made from what a reading has found. -/
theorem exists_of_found
    {α : Type}
    {read : Except Fault (Option α)}
    {form : α → TokenValue}
    {value : TokenValue}
    (isRead : (read >>= fun found? => pure (found?.map form)) = .ok (some value)) :
    ∃ found, read = .ok (some found) ∧ form found = value := by
  obtain ⟨found?, isFound, isFormed⟩ := bind_eq_ok_iff.mp isRead
  obtain ⟨found, rfl, isForm⟩ :=
    Option.map_eq_some_iff.mp (pure_eq_ok_iff.mp isFormed)
  exact ⟨found, isFound, isForm⟩

/-- The same for a reading that never ends with a fault. -/
theorem exists_of_found?
    {α : Type}
    {found? : Option α}
    {form : α → TokenValue}
    {value : TokenValue}
    (isRead : (.ok (found?.map form) : Except Fault (Option TokenValue)) =
      .ok (some value)) :
    ∃ found, found? = some found ∧ form found = value :=
  Option.map_eq_some_iff.mp (Except.ok.inj isRead)

/-- A font stack that is read names a family. -/
theorem shaped_of_readFontFamily
    {raw : String}
    {value : TokenValue}
    (isRead : readFontFamily raw = some value) :
    value.Shaped "fontFamily" := by
  unfold readFontFamily at isRead
  split at isRead
  · cases isRead
  · rename_i names someName
    obtain rfl := Option.some.inj isRead
    refine ⟨rfl, by simpa using someName, fun name isName => ?_⟩
    obtain ⟨text, _, rfl⟩ := List.mem_map.mp isName
    exact ⟨text, rfl⟩

/-- Layers that are read make up a shadow of one layer, or of at least two. -/
theorem shaped_shadowValue
    {layers : List Shadow}
    (nonempty : layers ≠ [])
    (canonical : ∀ layer ∈ layers, layer.Canonical) :
    (shadowValue layers).Shaped "shadow" := by
  rcases layers with _ | ⟨first, _ | ⟨second, rest⟩⟩
  · exact (nonempty rfl).elim
  · exact ⟨rfl, canonical first (by simp)⟩
  · exact ⟨rfl, by simp, canonical⟩

theorem shaped_of_mem_weights
    {weight : Nat}
    (isWeight : weight ∈ FontWeight.weights) :
    (TokenValue.plain (.int (Int.ofNat weight))).Shaped "fontWeight" :=
  ⟨rfl, weight, isWeight, rfl⟩

/--
A handler of this library reads a text only as a value in the shape of its type.
-/
theorem shaped_of_parseCompact
    {handler : Handler}
    (isBuiltin : handler ∈ builtins)
    {raw : String}
    {value : TokenValue}
    (isRead : handler.parseCompact raw = .ok (some value)) :
    value.Shaped handler.tag := by
  simp only [builtins, List.mem_cons, List.not_mem_nil, or_false] at isBuiltin
  rcases isBuiltin with
    rfl | rfl | rfl | rfl | rfl | rfl | rfl | rfl | rfl | rfl | rfl | rfl |
    rfl | rfl | rfl | rfl
  · obtain ⟨_, _, rfl⟩ := exists_of_found isRead
    rfl
  · obtain ⟨style, isStyle, rfl⟩ := exists_of_found isRead
    exact ⟨rfl, Typography.canonical_of_parse isStyle⟩
  · obtain ⟨_, _, rfl⟩ := exists_of_found isRead
    rfl
  · obtain ⟨layers, areLayers, rfl⟩ := exists_of_found isRead
    obtain ⟨nonempty, canonical⟩ := Shadow.canonical_of_parse areLayers
    exact shaped_shadowValue nonempty canonical
  · obtain ⟨_, _, rfl⟩ := exists_of_found? isRead
    rfl
  · obtain ⟨weight, isWeight, rfl⟩ := exists_of_found isRead
    exact shaped_of_mem_weights (FontWeight.mem_weights_of_parse isWeight)
  · exact shaped_of_readFontFamily (Except.ok.inj isRead)
  · obtain ⟨_, _, rfl⟩ := exists_of_found isRead
    rfl
  · obtain ⟨_, _, rfl⟩ := exists_of_found? isRead
    rfl
  · obtain ⟨_, _, rfl⟩ := exists_of_found? isRead
    rfl
  · obtain ⟨_, _, rfl⟩ := exists_of_found? isRead
    rfl
  · obtain ⟨_, _, rfl⟩ := exists_of_found? isRead
    rfl
  · obtain ⟨_, _, rfl⟩ := exists_of_found? isRead
    rfl
  · obtain ⟨animation, isAnimation, rfl⟩ := exists_of_found isRead
    exact ⟨rfl, Animation.canonical_of_parse isAnimation⟩
  · obtain ⟨_, _, rfl⟩ := exists_of_found? isRead
    rfl
  · cases isRead
    rfl

/--
A handler of this library reads the value of a design variable only as a value
in the shape of its type; many types have no such values.
-/
theorem shaped_of_parseNative
    {handler : Handler}
    (isBuiltin : handler ∈ builtins)
    {data : Wire}
    {value : TokenValue}
    (isRead : handler.parseNative data = .ok (some value)) :
    value.Shaped handler.tag := by
  simp only [builtins, List.mem_cons, List.not_mem_nil, or_false] at isBuiltin
  rcases isBuiltin with
    rfl | rfl | rfl | rfl | rfl | rfl | isFontFamily | rfl | rfl | rfl |
    isBoolean | rfl | rfl | rfl | rfl | rfl
  · obtain ⟨_, _, rfl⟩ := exists_of_found isRead
    rfl
  · cases isRead
  · obtain ⟨_, _, rfl⟩ := exists_of_found isRead
    rfl
  · cases isRead
  · obtain ⟨_, _, rfl⟩ := exists_of_found isRead
    rfl
  · obtain ⟨weight, isWeight, rfl⟩ := exists_of_found isRead
    exact shaped_of_mem_weights (FontWeight.mem_weights_of_parse isWeight)
  · subst isFontFamily
    cases data with
    | str text => exact shaped_of_readFontFamily (Except.ok.inj isRead)
    | _ => cases isRead
  · cases isRead
  · obtain ⟨_, _, rfl⟩ := exists_of_found isRead
    rfl
  · obtain ⟨_, _, rfl⟩ := exists_of_found isRead
    rfl
  · subst isBoolean
    cases data with
    | bool truth =>
        cases isRead
        rfl
    | _ => cases isRead
  · cases isRead
  · cases isRead
  · cases isRead
  · obtain ⟨_, _, rfl⟩ := exists_of_found isRead
    rfl
  · cases isRead
    rfl

end Handler

namespace Registry

theorem has_standard_iff
    {tag : String} :
    standard.has tag = true ↔ ∃ handler ∈ Handler.builtins, handler.tag = tag := by
  rw [has, find?, List.find?_isSome]
  simp [standard]

theorem has_string :
    standard.has "string" = true := by
  decide

/-- The tag to fall back to for the type of a variable is one of this library. -/
theorem has_of_nativeFallback
    {resolvedType : Wire}
    {tag : String}
    (chosen : standard.nativeFallback resolvedType = .ok tag) :
    standard.has tag = true := by
  have chosenIsKnown (wanted : String) :
      standard.has (if standard.has wanted then wanted else "string") = true := by
    split
    · assumption
    · exact has_string
  unfold nativeFallback at chosen
  simp only at chosen
  split at chosen
  · cases chosen
    exact chosenIsKnown _
  · split at chosen
    · cases chosen
      exact chosenIsKnown _
    · cases chosen

/-- The type that a design variable is found to have is one of this library. -/
theorem has_of_detectNative
    {context : NativeContext}
    {tag : String}
    (detected : standard.detectNative context = .ok tag) :
    standard.has tag = true := by
  obtain ⟨tag?, isFirst, chosen⟩ := bind_eq_ok_iff.mp detected
  rw [ordered_standard] at isFirst
  cases tag? with
  | some first =>
      obtain rfl := pure_eq_ok_iff.mp chosen
      obtain ⟨handler, isBuiltin, sameTag, _⟩ := exists_of_firstClaim isFirst
      exact has_standard_iff.mpr ⟨handler, isBuiltin, sameTag⟩
  | none => exact has_of_nativeFallback chosen

end Registry

end DesignTokens
