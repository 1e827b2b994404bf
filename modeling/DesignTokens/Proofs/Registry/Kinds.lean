import DesignTokens.Proofs.Registry.Handlers
import DesignTokens.Proofs.Reading
import DesignTokens.Proofs.Wire.Members
import DesignTokens.Source.File

namespace DesignTokens

/-!
# Kinds of parts that are asked for members

A reader that asks a part for a member that need not be there wants an object.
It ends with a fault of its own when the part is of another kind, and this is the
one fault that a file with a theme must not have.  A reader that asks for a
required member first ends with a foreseen fault, whatever the part is.
-/

/--
A fault that a file can have, or that of asking a part in vain
that is no object.
-/
def Foreseen (inVain : Prop) (fault : Fault) : Prop :=
  Theme.isFileFault fault = true ∨
    (inVain ∧ ∃ kind member, fault = .noMember kind member)

theorem Foreseen.mono
    {inVain later : Prop}
    {fault : Fault}
    (foreseen : Foreseen inVain fault)
    (isLater : inVain → later) :
    Foreseen later fault :=
  foreseen.imp_right fun isVain => ⟨isLater isVain.1, isVain.2⟩

namespace Wire

variable {inVain : Prop} (data : Wire) (name : String)

/-- Asking for a required member fails in a foreseen way. -/
theorem failsOnly_require :
    FailsOnly (Foreseen inVain) (data.require name) := by
  intro fault failed
  unfold require at failed
  split at failed
  · split at failed
    · cases failed
    · cases failed
      exact .inl rfl
  · cases failed
    exact .inl rfl

/-- Asking for an optional member fails only for a part that is no object. -/
theorem failsOnly_getD
    (default : Wire) :
    FailsOnly (Foreseen (data.isObject = false)) (data.getD name default) := by
  cases data with
  | obj members => simp [getD_obj]
  | _ => exact failsOnly_error_iff.mpr (.inr ⟨rfl, _, _, rfl⟩)

/-- A part with a required member is an object. -/
theorem isObject_of_require
    {data : Wire}
    {name : String}
    {value : Wire}
    (isThere : data.require name = .ok value) :
    data.isObject = true := by
  obtain ⟨members, rfl, _⟩ := require_eq_ok isThere
  rfl

/-- Asking for an optional member of an object does not fail. -/
theorem failsOnly_getD_of_isObject
    {data : Wire}
    (isObject : data.isObject = true)
    (name : String)
    (default : Wire) :
    FailsOnly (Foreseen inVain) (data.getD name default) := by
  refine (failsOnly_getD data name default).mono fun fault foreseen =>
    foreseen.mono fun notObject => ?_
  cases isObject.symm.trans notObject

theorem failsOnly_parts :
    FailsOnly (Foreseen inVain) data.parts := by
  cases data with
  | list items => exact failsOnly_ok _
  | str text => exact failsOnly_ok _
  | obj members => exact failsOnly_ok _
  | _ => exact failsOnly_error_iff.mpr (.inl rfl)

end Wire

/-! Values that ask for required members first. -/

section Required

variable {inVain : Prop} (data : Wire)

theorem Color.failsOnly_decode :
    FailsOnly (Foreseen inVain) (Color.decode data) := by
  refine (data.failsOnly_require "r").bind fun r isThere => ?_
  refine (data.failsOnly_require "g").bind fun g _ => ?_
  refine (data.failsOnly_require "b").bind fun b _ => ?_
  exact (Wire.failsOnly_getD_of_isObject (Wire.isObject_of_require isThere)
    "a" _).bind fun a _ => failsOnly_pure _

theorem Dimension.failsOnly_decode :
    FailsOnly (Foreseen inVain) (Dimension.decode data) := by
  refine (data.failsOnly_require "value").bind fun value isThere => ?_
  exact (Wire.failsOnly_getD_of_isObject (Wire.isObject_of_require isThere)
    "unit" _).bind fun unit _ => failsOnly_pure _

theorem Duration.failsOnly_decode :
    FailsOnly (Foreseen inVain) (Duration.decode data) := by
  refine (data.failsOnly_require "value").bind fun value isThere => ?_
  exact (Wire.failsOnly_getD_of_isObject (Wire.isObject_of_require isThere)
    "unit" _).bind fun unit _ => failsOnly_pure _

theorem CubicBezier.failsOnly_decode :
    FailsOnly (Foreseen inVain) (CubicBezier.decode data) := by
  unfold CubicBezier.decode
  split
  · refine (Wire.failsOnly_require _ "x1").bind fun x1 _ => ?_
    refine (Wire.failsOnly_require _ "y1").bind fun y1 _ => ?_
    refine (Wire.failsOnly_require _ "x2").bind fun x2 _ => ?_
    exact (Wire.failsOnly_require _ "y2").bind fun y2 _ => failsOnly_pure _
  · refine (Wire.failsOnly_parts _).bind fun parts _ => ?_
    split
    · exact failsOnly_pure _
    · exact failsOnly_error_iff.mpr (.inl rfl)

theorem Timing.failsOnly_decode :
    FailsOnly (Foreseen inVain) (Timing.decode data) := by
  unfold Timing.decode
  split
  · exact failsOnly_ok _
  · exact (CubicBezier.failsOnly_decode _).map _

/-- What counts as empty is left out, so that a reader of the rest decides. -/
theorem failsOnly_optional
    {α : Type}
    {read : Wire → Except Fault α}
    (fails : FailsOnly (Foreseen inVain) (read data)) :
    FailsOnly (Foreseen inVain) (if data.isTruthy then (read data).map some
    else .ok none) := by
  split
  · exact fails.map some
  · exact failsOnly_ok none

theorem Border.failsOnly_decode :
    FailsOnly (Foreseen inVain) (Border.decode data) := by
  refine (data.failsOnly_require "width").bind fun widthData isThere => ?_
  refine (Dimension.failsOnly_decode widthData).bind fun width _ => ?_
  refine (Wire.failsOnly_getD_of_isObject (Wire.isObject_of_require isThere)
    "style" _).bind fun style _ => ?_
  refine (data.failsOnly_require "color").bind fun colorData _ => ?_
  exact (Color.failsOnly_decode colorData).bind fun color _ => failsOnly_pure _

theorem GradientStop.failsOnly_decode :
    FailsOnly (Foreseen inVain) (GradientStop.decode data) := by
  refine (data.failsOnly_require "color").bind fun colorData _ => ?_
  refine (Color.failsOnly_decode colorData).bind fun color _ => ?_
  exact (data.failsOnly_require "position").bind fun position _ => failsOnly_pure _

theorem LineHeight.failsOnly_decode :
    FailsOnly (Foreseen inVain) (LineHeight.decode data) := by
  unfold LineHeight.decode
  split
  · exact (Dimension.failsOnly_decode data).map _
  · exact failsOnly_ok _

theorem Typography.failsOnly_decodeFamily :
    FailsOnly (Foreseen inVain) (Typography.decodeFamily data) := by
  unfold Typography.decodeFamily
  split
  · exact failsOnly_ok _
  · exact Wire.failsOnly_parts _

end Required

/-! Values that ask for an optional member first. -/

section Optional

variable (data : Wire)

theorem Gradient.failsOnly_decode :
    FailsOnly (Foreseen (data.isObject = false)) (Gradient.decode data) := by
  refine (data.failsOnly_getD "type" _).bind fun type _ => ?_
  refine (data.failsOnly_getD "stops" _).bind fun stopsData _ => ?_
  refine stopsData.failsOnly_parts.bind fun parts _ => ?_
  refine (failsOnly_mapM fun stop _ => GradientStop.failsOnly_decode stop).bind
    fun stops _ => ?_
  exact (data.failsOnly_getD "angle" _).bind fun angle _ => failsOnly_pure _

theorem Shadow.failsOnly_decode :
    FailsOnly (Foreseen (data.isObject = false)) (Shadow.decode data) := by
  refine (data.failsOnly_getD "spread" _).bind fun spreadData _ => ?_
  refine (data.failsOnly_require "offsetX").bind fun offsetXData _ => ?_
  refine (Dimension.failsOnly_decode offsetXData).bind fun offsetX _ => ?_
  refine (data.failsOnly_require "offsetY").bind fun offsetYData _ => ?_
  refine (Dimension.failsOnly_decode offsetYData).bind fun offsetY _ => ?_
  refine (data.failsOnly_require "blur").bind fun blurData _ => ?_
  refine (Dimension.failsOnly_decode blurData).bind fun blur _ => ?_
  refine (data.failsOnly_require "color").bind fun colorData _ => ?_
  refine (Color.failsOnly_decode colorData).bind fun color _ => ?_
  refine (failsOnly_optional spreadData
    (Dimension.failsOnly_decode spreadData)).bind fun spread _ => ?_
  exact (data.failsOnly_getD "inset" _).bind fun inset _ => failsOnly_pure _

theorem Transition.failsOnly_decode :
    FailsOnly (Foreseen (data.isObject = false)) (Transition.decode data) := by
  refine (data.failsOnly_getD "delay" _).bind fun delayData _ => ?_
  refine (data.failsOnly_require "duration").bind fun durationData _ => ?_
  refine (Duration.failsOnly_decode durationData).bind fun duration _ => ?_
  refine (data.failsOnly_getD "timingFunction" _).bind fun timingData _ => ?_
  refine (Timing.failsOnly_decode timingData).bind fun timing _ => ?_
  exact (failsOnly_optional delayData (Duration.failsOnly_decode delayData)).bind
    fun delay _ => failsOnly_pure _

theorem Animation.failsOnly_decode :
    FailsOnly (Foreseen (data.isObject = false)) (Animation.decode data) := by
  refine (data.failsOnly_getD "timingFunction" _).bind fun timingData _ => ?_
  refine (data.failsOnly_getD "delay" _).bind fun delayData _ => ?_
  refine (data.failsOnly_require "name").bind fun name _ => ?_
  refine (data.failsOnly_require "duration").bind fun durationData _ => ?_
  refine (Duration.failsOnly_decode durationData).bind fun duration _ => ?_
  refine (failsOnly_optional timingData (Timing.failsOnly_decode timingData)).bind
    fun timing _ => ?_
  refine (failsOnly_optional delayData (Duration.failsOnly_decode delayData)).bind
    fun delay _ => ?_
  refine (data.failsOnly_getD "iterationCount" _).bind fun count _ => ?_
  refine (data.failsOnly_getD "direction" _).bind fun direction _ => ?_
  refine (data.failsOnly_getD "fillMode" _).bind fun fillMode _ => ?_
  exact (data.failsOnly_getD "playState" _).bind fun playState _ => failsOnly_pure _

theorem Typography.failsOnly_decode :
    FailsOnly (Foreseen (data.isObject = false)) (Typography.decode data) := by
  refine (data.failsOnly_getD "fontFamily" _).bind fun family _ => ?_
  refine (data.failsOnly_getD "lineHeight" _).bind fun lineHeightData _ => ?_
  refine (LineHeight.failsOnly_decode lineHeightData).bind fun lineHeight _ => ?_
  refine (data.failsOnly_getD "letterSpacing" _).bind fun spacing _ => ?_
  refine (Typography.failsOnly_decodeFamily family).bind fun names _ => ?_
  refine (data.failsOnly_require "fontSize").bind fun sizeData _ => ?_
  refine (Dimension.failsOnly_decode sizeData).bind fun size _ => ?_
  refine (data.failsOnly_getD "fontWeight" _).bind fun weight _ => ?_
  exact (failsOnly_optional spacing (Dimension.failsOnly_decode spacing)).bind
    fun letterSpacing _ => failsOnly_pure _

/-- Listing the steps of keyframes and their properties takes objects. -/
theorem Keyframes.failsOnly_decode :
    FailsOnly
      (Foreseen
        ((data.isObject && data.members.all (fun step => step.2.isObject)) = false))
      (Keyframes.decode data) := by
  cases data with
  | obj steps =>
      refine (failsOnly_ok steps).bind fun members isSteps => ?_
      obtain rfl := Except.ok.inj isSteps
      refine (failsOnly_mapM fun step isStep => ?_).bind fun steps _ =>
        failsOnly_pure _
      refine FailsOnly.bind ?_ fun properties _ => failsOnly_pure _
      cases isKind : step.2 with
      | obj properties => exact failsOnly_ok _
      | _ =>
          refine failsOnly_error_iff.mpr (.inr ⟨?_, _, _, rfl⟩)
          refine Bool.eq_false_iff.mpr fun areObjects => ?_
          have isObject :=
            List.all_eq_true.mp (Bool.and_eq_true_iff.mp areObjects).2 step isStep
          rw [isKind] at isObject
          cases isObject
  | _ => exact failsOnly_error_iff.mpr (.inr ⟨rfl, _, _, rfl⟩)

end Optional

/-! Values of any type. -/

/--
Whether the value of a type has objects where its handler asks for optional
members, or lists members.
-/
def Wire.hasObjects (tag : String) (data : Wire) : Bool :=
  if tag ∈ ["typography", "gradient", "transition", "animation"] then data.isObject
  else if tag = "keyframes" then
    data.isObject && data.members.all (fun step => step.2.isObject)
  else if tag = "shadow" then
    match data with
    | .list layers => layers.all Wire.isObject
    | other => other.isObject
  else true

/-- A layer of a shadow, or a list of layers. -/
theorem Handler.failsOnly_decode_shadow
    (data : Wire) :
    FailsOnly (Foreseen (data.hasObjects "shadow" = false))
      (shadow.decode data) := by
  by_cases isList : ∃ layers, data = .list layers
  · obtain ⟨layers, rfl⟩ := isList
    refine (failsOnly_mapM fun layer isLayer => ?_).map _
    refine (Shadow.failsOnly_decode layer).mono fun fault foreseen =>
      foreseen.mono fun notObject => ?_
    refine Bool.eq_false_iff.mpr fun areObjects => ?_
    have isObject := List.all_eq_true.mp areObjects layer isLayer
    cases isObject.symm.trans notObject
  · have isOne : shadow.decode data = (Shadow.decode data).map .shadow ∧
        data.hasObjects "shadow" = data.isObject := by
      cases data with
      | list layers => exact (isList ⟨layers, rfl⟩).elim
      | _ => exact ⟨rfl, rfl⟩
    rw [isOne.1, isOne.2]
    exact (Shadow.failsOnly_decode data).map _

/-- A text that holds families, or a list of them. -/
theorem Handler.failsOnly_decode_fontFamily
    {inVain : Prop}
    (data : Wire) :
    FailsOnly (Foreseen inVain) (fontFamily.decode data) := by
  simp only [fontFamily]
  split
  · exact failsOnly_ok _
  · exact (Wire.failsOnly_parts _).map _

/--
A handler fails in a foreseen way on a value that has objects
where it wants them.
-/
theorem Handler.failsOnly_decode
    {handler : Handler}
    (isBuiltin : handler ∈ builtins)
    (data : Wire) :
    FailsOnly (Foreseen (data.hasObjects handler.tag = false))
      (handler.decode data) := by
  simp only [builtins, List.mem_cons, List.not_mem_nil, or_false] at isBuiltin
  rcases isBuiltin with
    rfl | rfl | rfl | rfl | rfl | rfl | rfl | rfl | rfl | rfl | rfl | rfl | rfl |
    rfl | rfl | rfl
  · exact (Color.failsOnly_decode data).map _
  · exact (Typography.failsOnly_decode data).map _
  · exact (Gradient.failsOnly_decode data).map _
  · exact failsOnly_decode_shadow data
  · exact (Dimension.failsOnly_decode data).map _
  · exact failsOnly_ok _
  · exact failsOnly_decode_fontFamily data
  · exact (Border.failsOnly_decode data).map _
  · exact (Duration.failsOnly_decode data).map _
  · exact (CubicBezier.failsOnly_decode data).map _
  · exact failsOnly_ok _
  · exact (Transition.failsOnly_decode data).map _
  · exact (Keyframes.failsOnly_decode data).map _
  · exact (Animation.failsOnly_decode data).map _
  · exact failsOnly_ok _
  · exact failsOnly_ok _

theorem Wire.isObject_of_getD_bind
    {α : Type}
    {data default : Wire}
    {name : String}
    {next : Wire → Except Fault α}
    {value : α}
    (isRead : (data.getD name default >>= next) = .ok value) :
    data.isObject = true := by
  obtain ⟨_, isThere, _⟩ := bind_eq_ok_iff.mp isRead
  obtain ⟨members, rfl, _⟩ := getD_eq_ok isThere
  rfl

theorem Keyframes.areObjects_of_decode
    {data : Wire}
    {keyframes : Keyframes}
    (isRead : decode data = .ok keyframes) :
    (data.isObject && data.members.all (fun step => step.2.isObject)) = true := by
  obtain ⟨members, areSteps, afterSteps⟩ := bind_eq_ok_iff.mp isRead
  obtain ⟨steps, areRead, _⟩ := bind_eq_ok_iff.mp afterSteps
  cases data with
  | obj own =>
      obtain rfl := Except.ok.inj areSteps
      refine Bool.and_eq_true_iff.mpr
        ⟨rfl, List.all_eq_true.mpr fun step isStep => ?_⟩
      obtain ⟨_, isStepRead⟩ := succeeds_mapM_iff.mp ⟨_, areRead⟩ step isStep
      obtain ⟨_, areProperties, _⟩ := bind_eq_ok_iff.mp isStepRead
      cases isKind : step.2 with
      | obj properties => rfl
      | _ =>
          rw [isKind] at areProperties
          cases areProperties
  | _ => cases areSteps

theorem Handler.hasObjects_of_decode_shadow
    {data : Wire}
    {value : TokenValue}
    (isRead : shadow.decode data = .ok value) :
    data.hasObjects "shadow" = true := by
  cases data with
  | list layers =>
      obtain ⟨_, areRead, _⟩ := map_eq_ok_iff.mp isRead
      refine List.all_eq_true.mpr fun layer isLayer => ?_
      obtain ⟨_, isLayerRead⟩ := succeeds_mapM_iff.mp ⟨_, areRead⟩ layer isLayer
      exact Wire.isObject_of_getD_bind isLayerRead
  | obj members => rfl
  | _ => cases isRead

/-- A value that a handler reads has objects where the handler wants them. -/
theorem Handler.hasObjects_of_decode
    {handler : Handler}
    (isBuiltin : handler ∈ builtins)
    {data : Wire}
    {value : TokenValue}
    (isRead : handler.decode data = .ok value) :
    data.hasObjects handler.tag = true := by
  simp only [builtins, List.mem_cons, List.not_mem_nil, or_false] at isBuiltin
  rcases isBuiltin with
    rfl | rfl | rfl | rfl | rfl | rfl | rfl | rfl | rfl | rfl | rfl | rfl | rfl |
    rfl | rfl | rfl
  · rfl
  · obtain ⟨_, isTypography, _⟩ := map_eq_ok_iff.mp isRead
    exact Wire.isObject_of_getD_bind isTypography
  · obtain ⟨_, isGradient, _⟩ := map_eq_ok_iff.mp isRead
    exact Wire.isObject_of_getD_bind isGradient
  · exact hasObjects_of_decode_shadow isRead
  · rfl
  · rfl
  · rfl
  · rfl
  · rfl
  · rfl
  · rfl
  · obtain ⟨_, isTransition, _⟩ := map_eq_ok_iff.mp isRead
    exact Wire.isObject_of_getD_bind isTransition
  · obtain ⟨_, areKeyframes, _⟩ := map_eq_ok_iff.mp isRead
    exact Keyframes.areObjects_of_decode areKeyframes
  · obtain ⟨_, isAnimation, _⟩ := map_eq_ok_iff.mp isRead
    exact Wire.isObject_of_getD_bind isAnimation
  · rfl
  · rfl

/--
A failure that a file can have: a foreseen fault, or the problem of a type
without a handler.
-/
def ForeseenFailure (inVain : Prop) : Failure → Prop
  | .problem problem => ∃ tag, problem = Registry.standard.unknown tag
  | .fault fault => Foreseen inVain fault

theorem ForeseenFailure.mono
    {inVain later : Prop}
    {failure : Failure}
    (foreseen : ForeseenFailure inVain failure)
    (isLater : inVain → later) :
    ForeseenFailure later failure := by
  cases failure with
  | problem problem => exact foreseen
  | fault fault => exact Foreseen.mono foreseen isLater

/-- A step that can only end with a foreseen fault. -/
theorem FailsOnly.foreseen
    {α : Type}
    {inVain : Prop}
    {reading : Except Fault α}
    (fails : FailsOnly (Foreseen inVain) reading) :
    FailsOnly (ForeseenFailure inVain) (liftM reading : Except Failure α) :=
  fails.lift fun _ foreseen => foreseen

namespace Registry

theorem failsOnly_get_standard
    {inVain : Prop}
    (tag : Wire) :
    FailsOnly (ForeseenFailure inVain) (standard.get tag) := by
  unfold get
  split
  · split
    · exact failsOnly_ok _
    · exact failsOnly_error_iff.mpr ⟨_, rfl⟩
  · split
    · exact failsOnly_error_iff.mpr ⟨_, rfl⟩
    · exact failsOnly_error_iff.mpr (.inl rfl)

/--
Whether a value under a tag has objects where members are asked for, and a text
for the path of a reference.
-/
def hasObjects (tag data : Wire) : Bool :=
  match Wire.lookup? "$ref" data.members, tag with
  | some (.str _), _ => true
  | some _, _ => false
  | none, .str name => data.hasObjects name
  | none, _ => true

theorem failsOnly_decodeValue_standard
    (tag data : Wire) :
    FailsOnly (ForeseenFailure (hasObjects tag data = false))
      (standard.decodeValue tag data) := by
  unfold decodeValue
  cases isReference : Wire.lookup? "$ref" data.members with
  | some target =>
      refine FailsOnly.bind (FailsOnly.foreseen ?_) fun reference _ =>
        failsOnly_pure _
      cases target with
      | str path => exact failsOnly_ok _
      | _ =>
          exact failsOnly_error_iff.mpr
            (.inr ⟨by simp [hasObjects, isReference], _, _, rfl⟩)
  | none =>
      refine (failsOnly_get_standard tag).bind fun handler isHandler =>
        FailsOnly.foreseen ?_
      obtain ⟨rfl, isBuiltin⟩ := get_standard_eq_ok isHandler
      have isSame : hasObjects (.str handler.tag) data =
          data.hasObjects handler.tag := by
        simp [hasObjects, isReference]
      rw [isSame]
      exact Handler.failsOnly_decode isBuiltin data

theorem hasObjects_of_decodeValue
    {tag data : Wire}
    {value : TokenValue}
    (isRead : standard.decodeValue tag data = .ok value) :
    hasObjects tag data = true := by
  unfold decodeValue at isRead
  cases isReference : Wire.lookup? "$ref" data.members with
  | some target =>
      rw [isReference] at isRead
      obtain ⟨_, isPath, _⟩ := bind_eq_ok_iff.mp isRead
      cases target with
      | str path => simp [hasObjects, isReference]
      | _ => cases isPath
  | none =>
      rw [isReference] at isRead
      obtain ⟨handler, isHandler, isValue⟩ := bind_eq_ok_iff.mp isRead
      obtain ⟨rfl, isBuiltin⟩ := get_standard_eq_ok isHandler
      simp [hasObjects, isReference,
        Handler.hasObjects_of_decode isBuiltin (lift_eq_ok_iff.mp isValue)]

end Registry

end DesignTokens
