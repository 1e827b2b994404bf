import DesignTokens.Proofs.Wire.Members
import DesignTokens.Value.Basic

namespace DesignTokens

/-!
# Composite values as documents

Reading the document form of a composite value gives the value back.  For text
styles, shadow layers, animations and keyframes this takes a canonical value,
since their forms leave out or fold together parts that count as empty.  Where
reading may produce a value that is not canonical, its normal form is, and has
the same document form.
-/

/-- A color is read back from its form. -/
theorem Color.decode_encode
    (color : Color) :
    Color.decode color.encode = .ok color :=
  rfl

/-- A length is read back from its form. -/
theorem Dimension.decode_encode
    (dimension : Dimension) :
    Dimension.decode dimension.encode = .ok dimension :=
  rfl

/-- A time span is read back from its form. -/
theorem Duration.decode_encode
    (duration : Duration) :
    Duration.decode duration.encode = .ok duration :=
  rfl

/-- A curve is read back from its list of coordinates. -/
theorem CubicBezier.decode_encode
    (curve : CubicBezier) :
    CubicBezier.decode curve.encode = .ok curve :=
  rfl

/-- A border is read back from its form. -/
theorem Border.decode_encode
    (border : Border) :
    Border.decode border.encode = .ok border :=
  rfl

/-- A color stop is read back from its form. -/
theorem GradientStop.decode_encode
    (stop : GradientStop) :
    GradientStop.decode stop.encode = .ok stop :=
  rfl

/-- An easing is read back from its form: a text is a keyword, a list is a curve. -/
theorem Timing.decode_encode
    (timing : Timing) :
    Timing.decode timing.encode = .ok timing := by
  cases timing <;> rfl

/-- A transition is read back from its form. -/
theorem Transition.decode_encode
    (transition : Transition) :
    Transition.decode transition.encode = .ok transition := by
  rcases transition with ⟨duration, timing, _ | delay⟩ <;> cases timing <;> rfl

namespace Reference

/-- Whether a path still stands in braces. -/
def Braced (path : String) : Prop :=
  path.toList.head? = some '\x7b' ∧ path.toList.getLast? = some '\x7d'

instance (path : String) : Decidable (Braced path) :=
  inferInstanceAs (Decidable (_ ∧ _))

/-- A path without braces around it stays as it is. -/
theorem stripBraces_of_not_braced
    {path : String}
    (bare : ¬ Braced path) :
    stripBraces path.toList = path.toList := by
  unfold stripBraces
  split
  · rename_i rest isPath
    have notClosed : rest.getLast? ≠ some '\x7d' := by
      intro isClosed
      exact bare (by simp [Braced, isPath, List.getLast?_cons, isClosed])
    exact if_neg notClosed
  · rfl

/-- A reference to a path without braces is read back from its path. -/
theorem decodePath_path
    {target : Reference}
    (bare : ¬ Braced target.path) :
    decodePath (.str target.path) = .ok target := by
  rw [decodePath, ofText, stripBraces_of_not_braced bare, String.ofList_toList]

end Reference

namespace Gradient

/-- The value that an optional member stands for: nothing when it is null. -/
def present? : Wire → Option Wire
  | .null => none
  | value => some value

/-- A missing optional member reads as null. -/
theorem getD_present?
    (value : Wire) :
    (present? value).getD .null = value := by
  cases value <;> rfl

/-- An optional member is found under its own name only. -/
theorem lookup?_optionalMember
    (name other : String)
    (value : Wire) :
    Wire.lookup? name (optionalMember other value) =
      if other = name then present? value else none := by
  cases value <;> simp [optionalMember, present?, Wire.lookup?]

/-- A gradient is read back from its form. -/
theorem decode_encode
    (gradient : Gradient) :
    Gradient.decode gradient.encode = .ok gradient := by
  have stopsRead :
      (gradient.stops.map GradientStop.encode).mapM GradientStop.decode =
        .ok gradient.stops :=
    mapM_map (fun stop _ => stop.decode_encode)
  simp [-bind_pure_comp, decode, encode, Wire.object, Wire.getD_obj, Wire.lookup?,
    lookup?_optionalMember, getD_present?, Wire.parts, stopsRead]
  rfl

end Gradient

/-- A relative line height is no object, which would be read as a length. -/
def LineHeight.Canonical : LineHeight → Prop
  | .ratio value => value.isObject = false
  | .length _ => True

/-- A canonical line height is read back from its form. -/
theorem LineHeight.decode_encode
    {lineHeight : LineHeight}
    (canonical : lineHeight.Canonical) :
    LineHeight.decode lineHeight.encode = .ok lineHeight := by
  cases lineHeight with
  | ratio value => exact if_neg (ne_true_of_eq_false canonical)
  | length value => rfl

/-- A line height that was read is canonical. -/
theorem LineHeight.canonical_of_decode
    {data : Wire}
    {lineHeight : LineHeight}
    (decoded : LineHeight.decode data = .ok lineHeight) :
    lineHeight.Canonical := by
  unfold LineHeight.decode at decoded
  split at decoded
  · obtain ⟨length, _, rfl⟩ := map_eq_ok_iff.mp decoded
    trivial
  · rename_i noObject
    cases decoded
    exact eq_false_of_ne_true noObject

namespace Typography

/-- A text style whose line height is canonical is read back from its form. -/
theorem decode_encode
    {style : Typography}
    (canonical : style.lineHeight.Canonical) :
    Typography.decode style.encode = .ok style := by
  have heightRead := LineHeight.decode_encode canonical
  rcases style with ⟨family, size, weight, lineHeight, _ | spacing⟩
  all_goals
    simp [-bind_pure_comp, decode, encode, Wire.object, Wire.getD_obj, Wire.require,
      Wire.lookup?, heightRead, decodeFamily, Wire.parts]
    rfl

/-- A text style that was read has a canonical line height. -/
theorem canonical_of_decode
    {data : Wire}
    {style : Typography}
    (decoded : Typography.decode data = .ok style) :
    style.lineHeight.Canonical := by
  simp only [decode, bind_eq_ok_iff, pure_eq_ok_iff] at decoded
  obtain ⟨_, _, _, _, lineHeight, heightRead, _, _, _, _, _, _, _, _, _, _, _, _,
      rfl⟩ := decoded
  exact LineHeight.canonical_of_decode heightRead

end Typography

namespace Shadow

/-- A layer whose inset mark is a truth value. -/
def Canonical (shadow : Shadow) : Prop :=
  ∃ truth, shadow.inset = .bool truth

/-- The layer with its inset mark as a truth value. -/
def normal (shadow : Shadow) : Shadow :=
  { shadow with inset := .bool shadow.inset.isTruthy }

/-- A normal layer is canonical. -/
theorem canonical_normal
    (shadow : Shadow) :
    shadow.normal.Canonical :=
  ⟨shadow.inset.isTruthy, rfl⟩

/-- A layer has the form of its normal form. -/
theorem encode_normal
    (shadow : Shadow) :
    shadow.normal.encode = shadow.encode :=
  rfl

/-- A canonical layer is read back from its form. -/
theorem decode_encode
    {shadow : Shadow}
    (canonical : shadow.Canonical) :
    Shadow.decode shadow.encode = .ok shadow := by
  obtain ⟨truth, isTruth⟩ := canonical
  rcases shadow with ⟨offsetX, offsetY, blur, color, _ | spread, inset⟩
  all_goals
    obtain rfl : inset = .bool truth := isTruth
    cases truth <;> rfl

end Shadow

namespace Animation

/--
An animation whose easing is not the empty keyword, which would
count as missing.
-/
def Canonical (animation : Animation) : Prop :=
  animation.timing? ≠ some (.keyword "")

/-- An easing that is there counts as present. -/
private theorem isTruthy_timing
    {timing : Timing}
    (present : timing ≠ .keyword "") :
    timing.encode.isTruthy = true := by
  cases timing with
  | keyword name =>
      have notEmpty : name ≠ "" :=
        fun isEmpty => present (congrArg Timing.keyword isEmpty)
      simpa [Timing.encode, Wire.isTruthy] using notEmpty
  | curve points => rfl

/-- An optional easing is read back. -/
private theorem decodeTiming_encode
    {timing : Timing}
    (present : timing ≠ .keyword "") :
    decodeTiming timing.encode = .ok (some timing) := by
  rw [decodeTiming, if_pos (isTruthy_timing present), Timing.decode_encode]
  rfl

/-- A canonical animation is read back from its form. -/
theorem decode_encode
    {animation : Animation}
    (canonical : animation.Canonical) :
    Animation.decode animation.encode = .ok animation := by
  have timingRead : ∀ timing, animation.timing? = some timing →
      decodeTiming timing.encode = .ok (some timing) :=
    fun _ isTiming =>
      decodeTiming_encode (fun isEmpty => canonical (isEmpty ▸ isTiming))
  rcases animation with
    ⟨name, duration, _ | timing, _ | delay, iterationCount, direction, fillMode,
      playState⟩
  all_goals
    simp [-bind_pure_comp, decode, encode, Wire.object, Wire.getD_obj, Wire.require,
      Wire.lookup?, Wire.lookup?_append, Gradient.lookup?_optionalMember,
      Gradient.getD_present?, Duration.decode_encode, timingRead]
    rfl

/-- An optional easing that was read is not the empty keyword. -/
private theorem ne_emptyKeyword_of_decodeTiming
    {data : Wire}
    {timing? : Option Timing}
    (decoded : decodeTiming data = .ok timing?) :
    timing? ≠ some (.keyword "") := by
  rintro rfl
  unfold decodeTiming at decoded
  split at decoded
  · rename_i present
    obtain ⟨timing, timingRead, isEmpty⟩ := map_eq_ok_iff.mp decoded
    obtain rfl := Option.some.inj isEmpty
    unfold Timing.decode at timingRead
    split at timingRead
    -- The empty text is not even looked at, since it counts as missing.
    · cases timingRead
      exact absurd present (by decide)
    · obtain ⟨_, _, isCurve⟩ := map_eq_ok_iff.mp timingRead
      cases isCurve
  · cases decoded

/-- An animation that was read is canonical. -/
theorem canonical_of_decode
    {data : Wire}
    {animation : Animation}
    (decoded : Animation.decode data = .ok animation) :
    animation.Canonical := by
  simp only [decode, bind_eq_ok_iff, pure_eq_ok_iff] at decoded
  obtain ⟨_, _, _, _, _, _, _, _, _, _, timing?, timingRead, _, _, _, _, _, _, _, _,
    _, _, rfl⟩ :=
    decoded
  exact ne_emptyKeyword_of_decodeTiming timingRead

end Animation

namespace Keyframes

/--
Steps whose selectors differ and whose properties have different names each.
No selector has the name by which a reference is told apart.
-/
structure Canonical (keyframes : Keyframes) : Prop where
  selectors : (keyframes.steps.map KeyframeStep.selector).Nodup
  properties : ∀ step ∈ keyframes.steps, (step.properties.map Prod.fst).Nodup
  notReference : "$ref" ∉ keyframes.steps.map KeyframeStep.selector

/-- A step as a member of the document form. -/
def member (step : KeyframeStep) : String × List (String × Wire) :=
  (step.selector, Wire.ofMembers step.properties)

/-- The steps as they stand in the document form. -/
def normal (keyframes : Keyframes) : Keyframes :=
  ⟨(Wire.ofMembers (keyframes.steps.map member)).map (fun step => ⟨step.1, step.2⟩)⟩

/--
The steps of the normal form, as members, are the members of the document form.
-/
private theorem map_selector_normal
    (keyframes : Keyframes) :
    keyframes.normal.steps.map KeyframeStep.selector =
      (Wire.ofMembers (keyframes.steps.map member)).map Prod.fst := by
  simp [normal]

/-- The properties of a step in normal form have different names. -/
private theorem nodup_of_mem_normal
    {keyframes : Keyframes}
    {step : KeyframeStep}
    (isStep : step ∈ keyframes.normal.steps) :
    (step.properties.map Prod.fst).Nodup := by
  obtain ⟨joined, isMember, rfl⟩ := List.mem_map.mp isStep
  obtain ⟨original, _, rfl⟩ := List.mem_map.mp (Wire.mem_of_mem_ofMembers isMember)
  exact Wire.nodup_ofMembers original.properties

/-- The normal form of steps without a reference is canonical. -/
theorem canonical_normal
    {keyframes : Keyframes}
    (notReference : "$ref" ∉ keyframes.steps.map KeyframeStep.selector) :
    keyframes.normal.Canonical where
  selectors := by
    rw [map_selector_normal]
    exact Wire.nodup_ofMembers _
  properties _ isStep := nodup_of_mem_normal isStep
  notReference := by
    rw [map_selector_normal]
    intro isSelector
    obtain ⟨joined, isMember, isReference⟩ := List.mem_map.mp isSelector
    obtain ⟨original, isStep, rfl⟩ :=
      List.mem_map.mp (Wire.mem_of_mem_ofMembers isMember)
    exact notReference (isReference ▸ List.mem_map_of_mem isStep)

/-- The document form of steps without repetitions lists them as they are. -/
private theorem encode_of_nodup
    {keyframes : Keyframes}
    (selectors : (keyframes.steps.map KeyframeStep.selector).Nodup)
    (properties : ∀ step ∈ keyframes.steps, (step.properties.map Prod.fst).Nodup) :
    keyframes.encode =
      .obj
        (keyframes.steps.map
          (fun step => (step.selector, .obj step.properties))) := by
  have asTheyAre :
      keyframes.steps.map
        (fun step => (step.selector, Wire.obj (Wire.ofMembers step.properties))) =
          keyframes.steps.map
            (fun step => (step.selector, Wire.obj step.properties)) := by
    refine List.map_congr_left (fun step isStep => ?_)
    rw [Wire.ofMembers_of_nodup (properties step isStep)]
  have distinct :
      ((keyframes.steps.map
        (fun step => (step.selector, Wire.obj step.properties))).map
          Prod.fst).Nodup := by
    simpa [Function.comp_def] using selectors
  rw [encode, asTheyAre, Wire.ofMembers_of_nodup distinct]
  rfl

/-- Steps have the form of their normal form. -/
theorem encode_normal
    (keyframes : Keyframes) :
    keyframes.normal.encode = keyframes.encode := by
  have selectors : (keyframes.normal.steps.map KeyframeStep.selector).Nodup := by
    rw [map_selector_normal]
    exact Wire.nodup_ofMembers _
  calc
    keyframes.normal.encode
        =
          .obj
            (keyframes.normal.steps.map
              (fun step => (step.selector, .obj step.properties))) :=
          encode_of_nodup selectors (fun _ isStep => nodup_of_mem_normal isStep)
    _ = .obj
          ((Wire.ofMembers (keyframes.steps.map member)).map
            (fun step => (step.1, .obj step.2))) := by
          simp [normal, Function.comp_def]
    _ = .obj
          (Wire.ofMembers
            ((keyframes.steps.map member).map
              (fun step => (step.1, .obj step.2)))) := by
          rw [Wire.map_ofMembers]
    _ = keyframes.encode := by
          simp [encode, member, Wire.object, Function.comp_def]

/-- The steps that were read have the names of the members as their selectors. -/
theorem selectors_of_decode
    {data : Wire}
    {keyframes : Keyframes}
    (decoded : Keyframes.decode data = .ok keyframes) :
    keyframes.steps.map KeyframeStep.selector = data.members.map Prod.fst := by
  simp only [decode, bind_eq_ok_iff, pure_eq_ok_iff] at decoded
  obtain ⟨members, membersRead, steps, stepsRead, rfl⟩ := decoded
  cases data with
  | obj given =>
      obtain rfl := Except.ok.inj membersRead
      refine map_of_mapM stepsRead ?_
      intro member step stepRead
      obtain ⟨_, _, isStep⟩ := bind_eq_ok_iff.mp stepRead
      obtain rfl := pure_eq_ok_iff.mp isStep
      rfl
  | _ => cases membersRead

/-- The document form of canonical steps does not look like a reference. -/
theorem Canonical.unmarked
    {keyframes : Keyframes}
    (canonical : keyframes.Canonical) :
    Wire.lookup? "$ref" keyframes.encode.members = none := by
  rw [encode_of_nodup canonical.selectors canonical.properties]
  exact Wire.lookup?_eq_none_iff.mpr (by simpa [Wire.members] using
    canonical.notReference)

/-- Canonical steps are read back from their form. -/
theorem decode_encode
    {keyframes : Keyframes}
    (canonical : keyframes.Canonical) :
    Keyframes.decode keyframes.encode = .ok keyframes := by
  have stepsRead :
      (keyframes.steps.map
        (fun step => (step.selector, Wire.obj step.properties))).mapM
          (fun member => do
            let properties ← membersOf member.2
            return KeyframeStep.mk member.1 properties) =
        .ok keyframes.steps :=
    mapM_map (fun _ _ => rfl)
  rw [encode_of_nodup canonical.selectors canonical.properties, decode, membersOf,
    ok_bind, stepsRead]
  rfl

end Keyframes

end DesignTokens
