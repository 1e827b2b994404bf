import DesignTokens.Lint.Rules.Values
import DesignTokens.Proofs.Registry.Shapes

namespace DesignTokens.Lint

/-!
# Value rules on values in shape

A value rule either finds fault with the shape of a value or with its parts.
The sentences for the one begin differently from those for the other, and a
value in the shape of its type is only ever faulted for its parts.
-/

/--
How the sentences that fault the shape of a value go on after their first word.
-/
def shapeStarts : List String :=
  [ "color: expected", "dimension: expected", "duration: expected", "font weight: ",
    "typography: expected", "shadow: ", "gradient: expected", "border: expected",
    "cubic bezier: expected" ]

/-- What the rules call the colors that they check. -/
def colorLabels : List String :=
  ["color", "shadow color", "gradient stop color", "border color"]

/-- What the rules call the lengths that they check. -/
def lengthLabels : List String :=
  [ "dimension", "font size", "line height", "letter spacing", "shadow offset",
    "shadow blur", "shadow spread", "border width" ]

/--
How the sentences that fault the parts of a value go on after their first word.
-/
def partStarts : List String :=
  colorLabels.map (fun label => label ++ " value") ++
    colorLabels.map (fun label => label ++ " alpha") ++
    lengthLabels.map (fun label => label ++ ": value") ++
    lengthLabels.map (fun label => label ++ " unit \"") ++
    [ "duration: value", "duration unit \"", "typography: font",
      "typography: line height",
      "gradient type \"", "gradient: at least", "gradient stop position",
        "border style \"",
      "cubic bezier: control points", "cubic bezier: x1" ]

/-- The first word of a sentence is followed by one of the given texts. -/
def Begins (starts : List String) (text : String) : Prop :=
  ∃ start ∈ starts, ∃ rest, text = "Invalid " ++ start ++ rest

/-- Whether a finding faults the shape of a value. -/
def ShapeFlaw (text : String) : Prop :=
  Begins shapeStarts text

/-- Whether a finding faults a part of a value. -/
def PartFlaw (text : String) : Prop :=
  Begins partStarts text

/-- No sentence faults both the shape of a value and a part of it. -/
theorem PartFlaw.not_shapeFlaw
    {text : String}
    (partFlaw : PartFlaw text) :
    ¬ ShapeFlaw text := by
  rintro ⟨shapeStart, isShapeStart, shapeRest, rfl⟩
  obtain ⟨partStart, isPartStart, partRest, same⟩ := partFlaw
  have apart : ∀ first ∈ shapeStarts, ∀ second ∈ partStarts,
      ¬ first.toList <+: second.toList ∧ ¬ second.toList <+: first.toList := by
    decide
  obtain ⟨notFirst, notSecond⟩ :=
    apart shapeStart isShapeStart partStart isPartStart
  have sameRest : shapeStart.toList ++ shapeRest.toList =
      partStart.toList ++ partRest.toList := by
    have sameChars := congrArg String.toList same
    simp only [String.toList_append, List.append_assoc] at sameChars
    exact List.append_cancel_left sameChars
  have shapeBegins : shapeStart.toList <+: partStart.toList ++ partRest.toList :=
    sameRest ▸ List.prefix_append _ _
  rcases List.prefix_or_prefix_of_prefix shapeBegins (List.prefix_append _ _) with
    leads | leads
  · exact notFirst leads
  · exact notSecond leads

theorem partFlaw_of_start
    {start : String}
    (isStart : start ∈ partStarts)
    (rest : String)
    {text : String}
    (same : text = "Invalid " ++ start ++ rest) :
    PartFlaw text :=
  ⟨start, isStart, rest, same⟩

/-- Every sentence of a list faults a part of a value. -/
def PartFlaws (flaws : List String) : Prop :=
  ∀ flaw ∈ flaws, PartFlaw flaw

theorem partFlaws_nil :
    PartFlaws [] := by
  intro flaw isFlaw
  cases isFlaw

theorem partFlaws_append_iff
    {first second : List String} :
    PartFlaws (first ++ second) ↔ PartFlaws first ∧ PartFlaws second :=
  List.forall_mem_append

/-- A sentence that is left out when all is well. -/
theorem partFlaws_flawUnless
    {sentence : String}
    (partFlaw : PartFlaw sentence)
    (fine : Bool) :
    PartFlaws (flawUnless fine sentence) := by
  cases fine with
  | true => exact partFlaws_nil
  | false =>
      intro flaw isFlaw
      obtain rfl := List.mem_singleton.mp isFlaw
      exact partFlaw

theorem partFlaws_flatten
    {α : Type}
    {parts : List α}
    {check : α → Except Fault (List String)}
    {flaws : List (List String)}
    (each : ∀ part found, check part = .ok found → PartFlaws found)
    (areChecked : parts.mapM check = .ok flaws) :
    PartFlaws flaws.flatten := by
  intro flaw isFlaw
  obtain ⟨found, isFound, inFound⟩ := List.mem_flatten.mp isFlaw
  obtain ⟨part, _, isChecked⟩ := exists_of_mem_mapM areChecked isFound
  exact each part found isChecked flaw inFound

/-- Colors are faulted for their channels. -/
theorem partFlaws_of_colorFlaws
    {label : String}
    (isLabel : label ∈ colorLabels)
    {color : Color}
    {flaws : List String}
    (areFlaws : colorFlaws label color = .ok flaws) :
    PartFlaws flaws := by
  obtain ⟨channels, _, afterChannels⟩ := bind_eq_ok_iff.mp areFlaws
  obtain ⟨alpha, _, joined⟩ := bind_eq_ok_iff.mp afterChannels
  obtain rfl := pure_eq_ok_iff.mp joined
  have valueStart : label ++ " value" ∈ partStarts := by
    simp only [partStarts, List.mem_append]
    exact .inl (.inl (.inl (.inl (List.mem_map_of_mem isLabel))))
  have alphaStart : label ++ " alpha" ∈ partStarts := by
    simp only [partStarts, List.mem_append]
    exact .inl (.inl (.inl (.inr (List.mem_map_of_mem isLabel))))
  refine partFlaws_append_iff.mpr
    ⟨partFlaws_flawUnless ?_ channels, partFlaws_flawUnless ?_ alpha⟩
  · exact partFlaw_of_start valueStart ": RGB values must be between 0 and 1"
      (by simp [String.append_assoc])
  · exact partFlaw_of_start alphaStart " value: must be between 0 and 1"
      (by simp [String.append_assoc])

theorem partFlaws_of_dimensionFlaws
    {label : String}
    (isLabel : label ∈ lengthLabels)
    {allowNegative : Bool}
    {dimension : Dimension}
    {flaws : List String}
    (areFlaws : dimensionFlaws label allowNegative dimension = .ok flaws) :
    PartFlaws flaws := by
  obtain ⟨finite, _, joined⟩ := bind_eq_ok_iff.mp areFlaws
  obtain rfl := pure_eq_ok_iff.mp joined
  have valueStart : label ++ ": value" ∈ partStarts := by
    simp only [partStarts, List.mem_append]
    exact .inl (.inl (.inr (List.mem_map_of_mem isLabel)))
  have unitStart : label ++ " unit \"" ∈ partStarts := by
    simp only [partStarts, List.mem_append]
    exact .inl (.inr (List.mem_map_of_mem isLabel))
  refine partFlaws_append_iff.mpr ⟨?_, partFlaws_flawUnless ?_ _⟩
  · split
    · refine partFlaws_flawUnless ?_ false
      exact partFlaw_of_start valueStart " must be a finite number"
        (by simp [String.append_assoc])
    · refine partFlaws_flawUnless ?_ _
      exact partFlaw_of_start valueStart " must not be negative"
        (by simp [String.append_assoc])
  · exact partFlaw_of_start unitStart
      (dimension.unit.display ++ "\": expected one of " ++
        Text.joinWith ", " Dimension.units)
      (by simp [String.append_assoc])

theorem partFlaws_of_curveFlaws
    {curve : CubicBezier}
    {flaws : List String}
    (areFlaws : curveFlaws curve = .ok flaws) :
    PartFlaws flaws := by
  obtain ⟨finite, _, afterFinite⟩ := bind_eq_ok_iff.mp areFlaws
  split at afterFinite
  · obtain rfl := pure_eq_ok_iff.mp afterFinite
    have finiteStart : "cubic bezier: control points" ∈ partStarts :=
      by simp [partStarts]
    exact partFlaws_flawUnless
      (partFlaw_of_start finiteStart " must be finite numbers" rfl) false
  · obtain rfl := pure_eq_ok_iff.mp afterFinite
    have rangeStart : "cubic bezier: x1" ∈ partStarts := by simp [partStarts]
    exact partFlaws_flawUnless
      (partFlaw_of_start rangeStart " and x2 must be between 0 and 1" rfl) _

/-- Line heights are faulted for their lengths, or for not being positive. -/
theorem partFlaws_of_lineHeightFlaws
    {lineHeight : LineHeight}
    {flaws : List String}
    (areFlaws : lineHeightFlaws lineHeight = .ok flaws) :
    PartFlaws flaws := by
  cases lineHeight with
  | length height =>
      exact partFlaws_of_dimensionFlaws (by simp [lengthLabels]) areFlaws
  | ratio value =>
      obtain ⟨finite, _, isFlaw⟩ := bind_eq_ok_iff.mp areFlaws
      obtain rfl := pure_eq_ok_iff.mp isFlaw
      have heightStart : "typography: line height" ∈ partStarts :=
        by simp [partStarts]
      exact partFlaws_flawUnless
        (partFlaw_of_start heightStart " must be positive" rfl) _

theorem partFlaws_of_shadowFlaws
    {layer : Shadow}
    {flaws : List String}
    (areFlaws : shadowFlaws layer = .ok flaws) :
    PartFlaws flaws := by
  obtain ⟨x, areX, afterX⟩ := bind_eq_ok_iff.mp areFlaws
  obtain ⟨y, areY, afterY⟩ := bind_eq_ok_iff.mp afterX
  obtain ⟨blur, areBlur, afterBlur⟩ := bind_eq_ok_iff.mp afterY
  obtain ⟨spread, spreadFlaws, afterSpread⟩ :
      ∃ spread, PartFlaws spread ∧
        (do
          let color ← colorFlaws "shadow color" layer.color
          return x ++ y ++ blur ++ spread ++ color) = .ok flaws := by
    simp only at afterBlur
    split at afterBlur
    · obtain ⟨spread, areSpread, afterSpread⟩ := bind_eq_ok_iff.mp afterBlur
      exact ⟨spread, partFlaws_of_dimensionFlaws (by simp [lengthLabels]) areSpread,
        afterSpread⟩
    · exact ⟨[], partFlaws_nil, afterBlur⟩
  obtain ⟨color, areColor, joined⟩ := bind_eq_ok_iff.mp afterSpread
  obtain rfl := pure_eq_ok_iff.mp joined
  simp only [partFlaws_append_iff]
  refine ⟨⟨⟨⟨?_, ?_⟩, ?_⟩, ?_⟩, ?_⟩
  · exact partFlaws_of_dimensionFlaws (by simp [lengthLabels]) areX
  · exact partFlaws_of_dimensionFlaws (by simp [lengthLabels]) areY
  · exact partFlaws_of_dimensionFlaws (by simp [lengthLabels]) areBlur
  · exact spreadFlaws
  · exact partFlaws_of_colorFlaws (by simp [colorLabels]) areColor

theorem partFlaws_of_stopFlaws
    {stop : GradientStop}
    {flaws : List String}
    (areFlaws : stopFlaws stop = .ok flaws) :
    PartFlaws flaws := by
  obtain ⟨position, _, afterPosition⟩ := bind_eq_ok_iff.mp areFlaws
  obtain ⟨color, areColor, joined⟩ := bind_eq_ok_iff.mp afterPosition
  obtain rfl := pure_eq_ok_iff.mp joined
  have positionStart : "gradient stop position" ∈ partStarts := by simp [partStarts]
  exact partFlaws_append_iff.mpr
    ⟨partFlaws_flawUnless
      (partFlaw_of_start positionStart ": must be between 0 and 1" rfl) _,
      partFlaws_of_colorFlaws (by simp [colorLabels]) areColor⟩

theorem partFlaws_of_timingFlaws
    {timing : Timing}
    {flaws : List String}
    (areFlaws : timingFlaws timing = .ok flaws) :
    PartFlaws flaws := by
  cases timing with
  | keyword name =>
      obtain rfl := Except.ok.inj areFlaws
      exact partFlaws_nil
  | curve curve => exact partFlaws_of_curveFlaws areFlaws

/--
A check finds nothing but flaws of parts in values that are in the
shape of its types.
-/
def ValueCheck.SparesShapes (check : ValueCheck) : Prop :=
  ∀ tag ∈ check.tags, ∀ value : TokenValue, value.Shaped tag →
    ∀ flaws, check.flaws value = .ok flaws → PartFlaws flaws

theorem sparesShapes_color
    (suggestion? : Option String) :
    ValueCheck.SparesShapes ⟨["color"], colorTokenFlaws, suggestion?⟩ := by
  intro tag isTag value shaped flaws areFlaws
  obtain rfl := List.mem_singleton.mp isTag
  cases value with
  | color color => exact partFlaws_of_colorFlaws (by simp [colorLabels]) areFlaws
  | plain data => exact absurd (Wire.Shaped.mem_plainTags shaped) (by decide)
  | _ => simp [TokenValue.Shaped] at shaped

theorem sparesShapes_dimension
    (suggestion? : Option String) :
    ValueCheck.SparesShapes ⟨["dimension"], dimensionTokenFlaws, suggestion?⟩ := by
  intro tag isTag value shaped flaws areFlaws
  obtain rfl := List.mem_singleton.mp isTag
  cases value with
  | dimension dimension =>
      exact partFlaws_of_dimensionFlaws (by simp [lengthLabels]) areFlaws
  | plain data => exact absurd (Wire.Shaped.mem_plainTags shaped) (by decide)
  | _ => simp [TokenValue.Shaped] at shaped

theorem sparesShapes_duration
    (suggestion? : Option String) :
    ValueCheck.SparesShapes ⟨["duration"], durationTokenFlaws, suggestion?⟩ := by
  intro tag isTag value shaped flaws areFlaws
  obtain rfl := List.mem_singleton.mp isTag
  cases value with
  | duration duration =>
      obtain ⟨finite, _, joined⟩ := bind_eq_ok_iff.mp areFlaws
      obtain rfl := pure_eq_ok_iff.mp joined
      have valueStart : "duration: value" ∈ partStarts := by simp [partStarts]
      have unitStart : "duration unit \"" ∈ partStarts := by simp [partStarts]
      refine partFlaws_append_iff.mpr
        ⟨partFlaws_flawUnless ?_ _, partFlaws_flawUnless ?_ _⟩
      · exact partFlaw_of_start valueStart " must be a non-negative number" rfl
      · exact partFlaw_of_start unitStart
          (duration.unit.display ++ "\": expected ms or s")
          (by simp [← String.append_assoc])
  | plain data => exact absurd (Wire.Shaped.mem_plainTags shaped) (by decide)
  | _ => simp [TokenValue.Shaped] at shaped

/-- A font weight in shape is one of those that fonts have, so nothing is found. -/
theorem sparesShapes_fontWeight
    (suggestion? : Option String) :
    ValueCheck.SparesShapes
      ⟨["fontWeight"], fontWeightTokenFlaws, suggestion?⟩ := by
  intro tag isTag value shaped flaws areFlaws
  obtain rfl := List.mem_singleton.mp isTag
  cases value with
  | plain data =>
      cases data with
      | int whole =>
          obtain ⟨_, weight, isWeight, rfl⟩ := shaped
          obtain ⟨finite, isFinite, joined⟩ := bind_eq_ok_iff.mp areFlaws
          obtain rfl := pure_eq_ok_iff.mp joined
          obtain ⟨_, _, rfl⟩ := map_eq_ok_iff.mp isFinite
          have known : Lint.isWeight (.int (Int.ofNat weight)) = true :=
            List.any_eq_true.mpr ⟨weight, isWeight, by simp⟩
          simp only [TokenValue.encode, known]
          exact partFlaws_nil
      | _ => simp [TokenValue.Shaped, Wire.Shaped] at shaped
  | _ => simp [TokenValue.Shaped] at shaped

theorem sparesShapes_typography
    (suggestion? : Option String) :
    ValueCheck.SparesShapes
      ⟨["typography"], typographyTokenFlaws, suggestion?⟩ := by
  intro tag isTag value shaped flaws areFlaws
  obtain rfl := List.mem_singleton.mp isTag
  cases value with
  | typography style =>
      obtain ⟨size, areSize, afterSize⟩ := bind_eq_ok_iff.mp areFlaws
      obtain ⟨height, areHeight, afterHeight⟩ := bind_eq_ok_iff.mp afterSize
      have fontStart : "typography: font" ∈ partStarts := by simp [partStarts]
      have familyFlaw : PartFlaw "Invalid typography: font family is empty" :=
        partFlaw_of_start fontStart " family is empty" rfl
      have weightFlaw :
          PartFlaw
            ("Invalid typography: font weight " ++ style.fontWeight.quoted) :=
        partFlaw_of_start fontStart (" weight " ++ style.fontWeight.quoted)
          (by simp [← String.append_assoc])
      obtain ⟨spacing, spacingFlaws, joined⟩ :
          ∃ spacing, PartFlaws spacing ∧
            flawUnless (!style.fontFamily.isEmpty)
              "Invalid typography: font family is empty" ++
                size ++
                flawUnless (isWeight style.fontWeight)
                  ("Invalid typography: font weight " ++ style.fontWeight.quoted) ++
                height ++ spacing = flaws := by
        simp only at afterHeight
        split at afterHeight
        · obtain ⟨spacing, areSpacing, joined⟩ := bind_eq_ok_iff.mp afterHeight
          exact ⟨spacing,
            partFlaws_of_dimensionFlaws (by simp [lengthLabels]) areSpacing,
            pure_eq_ok_iff.mp joined⟩
        · exact ⟨[], partFlaws_nil, pure_eq_ok_iff.mp afterHeight⟩
      subst joined
      simp only [partFlaws_append_iff]
      exact ⟨⟨⟨⟨partFlaws_flawUnless familyFlaw _,
        partFlaws_of_dimensionFlaws (by simp [lengthLabels]) areSize⟩,
        partFlaws_flawUnless weightFlaw _⟩, partFlaws_of_lineHeightFlaws areHeight⟩,
        spacingFlaws⟩
  | plain data => exact absurd (Wire.Shaped.mem_plainTags shaped) (by decide)
  | _ => simp [TokenValue.Shaped] at shaped

theorem sparesShapes_shadow
    (suggestion? : Option String) :
    ValueCheck.SparesShapes ⟨["shadow"], shadowTokenFlaws, suggestion?⟩ := by
  intro tag isTag value shaped flaws areFlaws
  obtain rfl := List.mem_singleton.mp isTag
  cases value with
  | shadow layer => exact partFlaws_of_shadowFlaws areFlaws
  | shadows layers =>
      obtain ⟨_, several, _⟩ := shaped
      have nonempty : layers.isEmpty = false := by
        cases layers with
        | nil => simp at several
        | cons => rfl
      simp only [shadowTokenFlaws, layersFlaws, nonempty] at areFlaws
      obtain ⟨found, areFound, joined⟩ := bind_eq_ok_iff.mp areFlaws
      obtain rfl := pure_eq_ok_iff.mp joined
      exact partFlaws_flatten (fun _ _ => partFlaws_of_shadowFlaws) areFound
  | plain data => exact absurd (Wire.Shaped.mem_plainTags shaped) (by decide)
  | _ => simp [TokenValue.Shaped] at shaped

theorem sparesShapes_gradient
    (suggestion? : Option String) :
    ValueCheck.SparesShapes ⟨["gradient"], gradientTokenFlaws, suggestion?⟩ := by
  intro tag isTag value shaped flaws areFlaws
  obtain rfl := List.mem_singleton.mp isTag
  cases value with
  | gradient gradient =>
      obtain ⟨stops, areStops, joined⟩ := bind_eq_ok_iff.mp areFlaws
      obtain rfl := pure_eq_ok_iff.mp joined
      have typeStart : "gradient type \"" ∈ partStarts := by simp [partStarts]
      have countStart : "gradient: at least" ∈ partStarts := by simp [partStarts]
      simp only [partFlaws_append_iff]
      refine ⟨⟨partFlaws_flawUnless ?_ _, partFlaws_flawUnless ?_ _⟩,
        partFlaws_flatten (fun _ _ => partFlaws_of_stopFlaws) areStops⟩
      · exact partFlaw_of_start typeStart (gradient.type.display ++ "\"")
          (by simp [← String.append_assoc])
      · exact partFlaw_of_start countStart " two color stops are required" rfl
  | plain data => exact absurd (Wire.Shaped.mem_plainTags shaped) (by decide)
  | _ => simp [TokenValue.Shaped] at shaped

theorem sparesShapes_border
    (suggestion? : Option String) :
    ValueCheck.SparesShapes ⟨["border"], borderTokenFlaws, suggestion?⟩ := by
  intro tag isTag value shaped flaws areFlaws
  obtain rfl := List.mem_singleton.mp isTag
  cases value with
  | border border =>
      obtain ⟨width, areWidth, afterWidth⟩ := bind_eq_ok_iff.mp areFlaws
      obtain ⟨color, areColor, joined⟩ := bind_eq_ok_iff.mp afterWidth
      obtain rfl := pure_eq_ok_iff.mp joined
      have styleStart : "border style \"" ∈ partStarts := by simp [partStarts]
      simp only [partFlaws_append_iff]
      refine ⟨⟨partFlaws_of_dimensionFlaws (by simp [lengthLabels]) areWidth,
        partFlaws_flawUnless ?_ _⟩,
        partFlaws_of_colorFlaws (by simp [colorLabels]) areColor⟩
      exact partFlaw_of_start styleStart (border.style.display ++ "\"")
        (by simp [← String.append_assoc])
  | plain data => exact absurd (Wire.Shaped.mem_plainTags shaped) (by decide)
  | _ => simp [TokenValue.Shaped] at shaped

/-- Transitions and animations are only looked at for the curves that they hold. -/
theorem sparesShapes_curve
    (suggestion? : Option String) :
    ValueCheck.SparesShapes
      ⟨["cubicBezier", "transition", "animation"], curveTokenFlaws,
        suggestion?⟩ := by
  intro tag isTag value shaped flaws areFlaws
  cases value with
  | cubicBezier curve => exact partFlaws_of_curveFlaws areFlaws
  | transition transition => exact partFlaws_of_timingFlaws areFlaws
  | animation animation =>
      simp only [curveTokenFlaws] at areFlaws
      split at areFlaws
      · exact partFlaws_of_timingFlaws areFlaws
      · obtain rfl := Except.ok.inj areFlaws
        exact partFlaws_nil
  | plain data =>
      have apart : ∀ plain ∈ TokenValue.plainTags,
          plain ∉ ["cubicBezier", "transition", "animation"] := by
        decide
      exact absurd isTag (apart tag (Wire.Shaped.mem_plainTags shaped))
  | _ => simp_all [TokenValue.Shaped]

/-- What a check finds in tokens in shape are flaws of parts. -/
theorem ValueCheck.SparesShapes.partFlaw
    {check : ValueCheck}
    (spares : check.SparesShapes)
    {theme : Theme}
    (shaped : ∀ located ∈ theme.walk, located.token.Shaped)
    {findings : List Finding}
    (areFound : check.findings theme = .ok findings)
    {finding : Finding}
    (isFinding : finding ∈ findings) :
    PartFlaw finding.text := by
  obtain ⟨found, areChecked, joined⟩ := bind_eq_ok_iff.mp areFound
  obtain rfl := pure_eq_ok_iff.mp joined
  obtain ⟨ofToken, isOfToken, inToken⟩ := List.mem_flatten.mp isFinding
  obtain ⟨located, isLocated, isChecked⟩ := exists_of_mem_mapM areChecked isOfToken
  obtain ⟨tag, isTag, _, inShape⟩ := shaped located isLocated
  unfold findingsAt at isChecked
  split at isChecked
  · rename_i applies
    obtain ⟨flaws, areFlaws, worded⟩ := bind_eq_ok_iff.mp isChecked
    obtain rfl := pure_eq_ok_iff.mp worded
    obtain ⟨flaw, isFlaw, rfl⟩ := List.mem_map.mp inToken
    obtain ⟨hasTag, noReference⟩ := Bool.and_eq_true_iff.mp applies
    have checked : tag ∈ check.tags := by
      obtain ⟨one, isOne, same⟩ := List.any_eq_true.mp hasTag
      rw [isTag] at same
      obtain rfl : tag = one := by simpa [Wire.isText] using same
      exact isOne
    rcases inShape with isReference | valueShaped
    · simp [isReference] at noReference
    · exact spares tag checked _ valueShaped flaws areFlaws flaw isFlaw
  · obtain rfl := pure_eq_ok_iff.mp isChecked
    cases inToken

/-- The rules that look at the values of tokens. -/
def valueRules : List Rule :=
  [ invalidColorValue, invalidDimensionValue, invalidDurationValue,
    invalidFontWeight,
    invalidTypographyValue, invalidShadowValue, invalidGradientValue,
      invalidBorderValue,
    invalidCubicBezier ]

/--
Every value rule makes a check that finds only flaws of parts in
values in shape.
-/
theorem exists_check_of_mem_valueRules
    {rule : Rule}
    (isValueRule : rule ∈ valueRules) :
    ∃ check : ValueCheck, check.SparesShapes ∧
      ∀ registry theme, rule.check registry theme =
        .ofFaulty (check.findings theme) := by
  simp only [valueRules, List.mem_cons, List.not_mem_nil, or_false] at isValueRule
  rcases isValueRule with rfl | rfl | rfl | rfl | rfl | rfl | rfl | rfl | rfl
  · exact ⟨_, sparesShapes_color _, fun _ _ => rfl⟩
  · exact ⟨_, sparesShapes_dimension _, fun _ _ => rfl⟩
  · exact ⟨_, sparesShapes_duration _, fun _ _ => rfl⟩
  · exact ⟨_, sparesShapes_fontWeight _, fun _ _ => rfl⟩
  · exact ⟨_, sparesShapes_typography _, fun _ _ => rfl⟩
  · exact ⟨_, sparesShapes_shadow _, fun _ _ => rfl⟩
  · exact ⟨_, sparesShapes_gradient _, fun _ _ => rfl⟩
  · exact ⟨_, sparesShapes_border _, fun _ _ => rfl⟩
  · exact ⟨_, sparesShapes_curve _, fun _ _ => rfl⟩

/--
No value rule faults the shape of a value when all tokens of a
theme are in shape.
-/
theorem not_shapeFlaw_of_shaped
    {theme : Theme}
    (shaped : ∀ located ∈ theme.walk, located.token.Shaped)
    {rule : Rule}
    (isValueRule : rule ∈ valueRules)
    {registry : Registry}
    {finding : Finding}
    (isFinding : finding ∈ (rule.check registry theme).findings) :
    ¬ ShapeFlaw finding.text := by
  obtain ⟨check, spares, makesCheck⟩ := exists_check_of_mem_valueRules isValueRule
  rw [makesCheck] at isFinding
  cases areFound : check.findings theme with
  | error fault =>
      rw [areFound] at isFinding
      cases isFinding
  | ok findings =>
      rw [areFound] at isFinding
      exact (spares.partFlaw shaped areFound isFinding).not_shapeFlaw

end DesignTokens.Lint
