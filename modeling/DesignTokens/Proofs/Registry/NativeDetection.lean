import DesignTokens.Proofs.Registry.Detection

namespace DesignTokens

/-!
# Design variables and their types

Detecting the type of a design variable ends with a fault for two kinds of
variable: one whose declared type is a list or an object, and a number with a
list or an object among its scopes, before any scope of a length.  The handler
that claims a variable reads its value, unless a whole number is too large for a
double or a font weight is a separated number.

A design variable counts as a text unless its declared type is that of a color,
a truth value or a number, or it is a text in the scope of font families.  Only
the handler of texts makes a value of nothing.
-/

open DesignTokens.Text

namespace Wire

/-- A whole number that is too large for a double. -/
def Overflows (data : Wire) : Prop :=
  ∃ whole, data = .int whole ∧ (Number.ofInt whole).isInf = true

end Wire

/-- A reading ends because a number is too large. -/
def EndsInOverflow {α : Type} (reading : Except Fault α) : Prop :=
  ∃ text, reading = .error (.overflow text)

@[simp] theorem not_endsInOverflow_ok
    {α : Type}
    (result : α) :
    ¬ EndsInOverflow (.ok result : Except Fault α) := by
  rintro ⟨_, isOverflow⟩
  cases isOverflow

@[simp] theorem endsInOverflow_error_iff
    {α : Type}
    {fault : Fault} :
    EndsInOverflow (.error fault : Except Fault α) ↔
      ∃ text, fault = .overflow text := by
  simp [EndsInOverflow]

/-- Of two steps, the first ends in an overflow, or the second does after it. -/
theorem endsInOverflow_bind_iff
    {α β : Type}
    {first : Except Fault α}
    {next : α → Except Fault β}
    {fits : Prop}
    (alike : ∀ middle, EndsInOverflow (next middle) ↔ fits) :
    EndsInOverflow (first >>= next) ↔
      EndsInOverflow first ∨ (Succeeds first ∧ fits) := by
  cases first with
  | error fault =>
      have failed : ((.error fault : Except Fault α) >>= next) = .error fault := rfl
      simp [failed]
  | ok middle =>
      rw [ok_bind, alike]
      simp

namespace Number

theorem endsInOverflow_ofInt?_iff
    {whole : Int} :
    EndsInOverflow (ofInt? whole) ↔ (ofInt whole).isInf = true := by
  unfold ofInt?
  by_cases isInfinite : (ofInt whole).isInf = true <;> simp [isInfinite]

theorem succeeds_ofInt?_iff
    {whole : Int} :
    Succeeds (ofInt? whole) ↔ ¬ (ofInt whole).isInf = true := by
  unfold ofInt?
  by_cases isInfinite : (ofInt whole).isInf = true <;> simp [isInfinite]

end Number

/--
Reading a part as a number ends in an overflow only for a whole number
that is too large.
-/
theorem Wire.endsInOverflow_toFloat_iff
    {data : Wire} :
    EndsInOverflow data.toFloat ↔ data.Overflows := by
  cases data with
  | int whole =>
      have reads : (Wire.int whole).toFloat = Number.ofInt? whole := rfl
      simp [reads, Number.endsInOverflow_ofInt?_iff, Overflows]
  | str text =>
      simp only [toFloat]
      cases Number.readFloat? text <;> simp [Overflows]
  | _ => simp [Overflows, toFloat, number?, numberFault]

namespace NativeContext

/-- A scope that only lengths have. -/
def IsLengthScope (scope : Wire) : Prop :=
  ∃ name ∈ Handler.lengthScopes, scope = .str name

/-- A scope that is no key comes before any scope that only lengths have. -/
def UnkeyedFirst (scopes : List Wire) : Prop :=
  MeetsFirst (fun scope => ¬ IsLengthScope scope)
    (fun scope => scope.isKey = false) scopes

/-- Detecting the type of the variable ends with a fault. -/
def Misleads (context : NativeContext) : Prop :=
  context.resolvedType.isKey = false ∨
    (context.resolvedType = .str "FLOAT" ∧ UnkeyedFirst context.scopes)

end NativeContext

namespace Handler

theorem succeeds_anyLengthScope_iff
    {scopes : List Wire} :
    Succeeds (anyLengthScope scopes) ↔ ¬ NativeContext.UnkeyedFirst scopes := by
  unfold NativeContext.UnkeyedFirst
  induction scopes with
  | nil => simp [anyLengthScope]
  | cons scope rest inductionHypothesis =>
      rw [meetsFirst_cons_iff]
      unfold anyLengthScope
      cases scope with
      | str name =>
          by_cases isLength : name ∈ lengthScopes
          · simp [Wire.isKey, isLength, NativeContext.IsLengthScope]
          · simp [Wire.isKey, isLength, NativeContext.IsLengthScope,
              inductionHypothesis]
      | _ => simp [Wire.isKey, NativeContext.IsLengthScope, inductionHypothesis]

/-- The handlers that claim design variables. -/
def nativeHandlers : List Handler :=
  [color, dimension, fontWeight, fontFamily, boolean, number, string]

theorem nativeHandlers_subset_builtins :
    nativeHandlers ⊆ builtins := by
  simp [nativeHandlers, builtins]

/--
A handler of this library that claims a variable is one of those that claim any.
-/
theorem mem_nativeHandlers_of_claimed
    {handler : Handler}
    (isBuiltin : handler ∈ builtins)
    {context : NativeContext}
    (claimed : handler.detectNative context = .ok true) :
    handler ∈ nativeHandlers := by
  simp only [builtins, List.mem_cons, List.not_mem_nil, or_false] at isBuiltin
  rcases isBuiltin with
    rfl | rfl | rfl | rfl | rfl | rfl | rfl | rfl | rfl | rfl | rfl | rfl |
    rfl | rfl | rfl | rfl
  all_goals first | cases claimed | simp [nativeHandlers]

/-- Every handler can tell whether it claims a variable that is no number. -/
theorem succeeds_detectNative_of_not_float
    {handler : Handler}
    (isBuiltin : handler ∈ builtins)
    {context : NativeContext}
    (noNumber : context.resolvedType.isText "FLOAT" = false) :
    Succeeds (handler.detectNative context) := by
  simp only [builtins, List.mem_cons, List.not_mem_nil, or_false] at isBuiltin
  rcases isBuiltin with
    rfl | rfl | rfl | rfl | isDimension | rfl | rfl | rfl | rfl | rfl | rfl |
    rfl | rfl | rfl | rfl | rfl
  case inr.inr.inr.inr.inl =>
    subst isDimension
    simp [dimension, noNumber]
  all_goals exact succeeds_ok _

end Handler

namespace Registry

variable {Context : Type} {claims : Handler → Context → Except Fault Bool}
  {asked : Context}

theorem firstClaim_append_of_not_claimed
    {handlers : List Handler}
    (notClaimed : ∀ handler ∈ handlers, claims handler asked = .ok false)
    (rest : List Handler) :
    firstClaim claims asked (handlers ++ rest) = firstClaim claims asked rest := by
  induction handlers with
  | nil => rfl
  | cons handler later inductionHypothesis =>
      obtain ⟨handlerDeclines, laterDecline⟩ := List.forall_mem_cons.mp notClaimed
      rw [List.cons_append, firstClaim, handlerDeclines, ok_bind]
      exact inductionHypothesis laterDecline

end Registry

namespace Registry

variable {context : NativeContext}

/-- No handler claims a variable whose declared type is a list or an object. -/
theorem not_claimed_of_not_key
    (noKey : context.resolvedType.isKey = false) :
    ∀ handler ∈ Handler.builtins, handler.detectNative context = .ok false := by
  have isNoText (text : String) : context.resolvedType.isText text = false := by
    revert noKey
    cases context.resolvedType <;> simp [Wire.isKey, Wire.isText]
  simp [Handler.builtins, Handler.color, Handler.typography, Handler.gradient,
    Handler.shadow, Handler.dimension, Handler.fontWeight, Handler.fontFamily,
    Handler.border, Handler.duration, Handler.cubicBezier, Handler.boolean,
    Handler.transition, Handler.keyframes, Handler.animation, Handler.number,
    Handler.string, isNoText]

theorem succeeds_nativeFallback_iff
    {resolvedType : Wire} :
    Succeeds (standard.nativeFallback resolvedType) ↔
      resolvedType.isKey = true := by
  cases resolvedType <;> simp [nativeFallback, Wire.isKey]

/--
The first claim on a number is found once it is known whether the
number is a length.
-/
theorem succeeds_firstClaim_float_iff
    (isFloat : context.resolvedType = .str "FLOAT") :
    Succeeds (firstClaim Handler.detectNative context Handler.builtins) ↔
      Succeeds (Handler.anyLengthScope context.scopes) := by
  have split :
      Handler.builtins =
        Handler.builtins.take 4 ++ Handler.dimension :: Handler.builtins.drop 5 :=
    rfl
  have beforeDecline : ∀ handler ∈ Handler.builtins.take 4,
      handler.detectNative context = .ok false := by
    simp [Handler.builtins, Handler.color, Handler.typography, Handler.gradient,
      Handler.shadow, isFloat, Wire.isText]
  have afterTell : ∀ handler ∈ Handler.builtins.drop 5,
      Succeeds (handler.detectNative context) := by
    simp [Handler.builtins, Handler.fontWeight, Handler.fontFamily, Handler.border,
      Handler.duration, Handler.cubicBezier, Handler.boolean, Handler.transition,
      Handler.keyframes, Handler.animation, Handler.number, Handler.string]
  have lengthAsked : Handler.dimension.detectNative context =
      Handler.anyLengthScope context.scopes := by
    simp [Handler.dimension, isFloat, Wire.isText]
  rw [split, firstClaim_append_of_not_claimed beforeDecline,
    succeeds_firstClaim_cons_of_rest (succeeds_firstClaim afterTell), lengthAsked]

/--
With a type to fall back to, detection succeeds when the handlers
come to an answer.
-/
theorem succeeds_detectNative_iff_firstClaim
    (isKey : context.resolvedType.isKey = true) :
    Succeeds (standard.detectNative context) ↔
      Succeeds (firstClaim Handler.detectNative context Handler.builtins) := by
  rw [detectNative, ordered_standard]
  refine succeeds_bind_of_total (fun tag? => ?_)
  cases tag? with
  | some tag => exact succeeds_pure tag
  | none => exact succeeds_nativeFallback_iff.mpr isKey

theorem not_succeeds_detectNative_of_not_key
    (noKey : context.resolvedType.isKey = false) :
    ¬ Succeeds (standard.detectNative context) := by
  have noClaim := firstClaim_append_of_not_claimed (not_claimed_of_not_key noKey) []
  rw [List.append_nil] at noClaim
  rw [detectNative, ordered_standard, noClaim]
  intro fallsBack
  cases noKey.symm.trans (succeeds_nativeFallback_iff.mp fallsBack)

/-- The type of a design variable is detected unless the variable misleads. -/
theorem succeeds_detectNative_iff :
    Succeeds (standard.detectNative context) ↔ ¬ context.Misleads := by
  rw [NativeContext.Misleads, not_or]
  by_cases isKey : context.resolvedType.isKey = true
  · rw [succeeds_detectNative_iff_firstClaim isKey]
    by_cases isFloat : context.resolvedType = .str "FLOAT"
    · rw [succeeds_firstClaim_float_iff isFloat,
        Handler.succeeds_anyLengthScope_iff]
      simp [isFloat, Wire.isKey]
    · have noNumber : context.resolvedType.isText "FLOAT" = false := by
        revert isFloat
        cases context.resolvedType <;> simp [Wire.isText]
      refine iff_of_true (succeeds_firstClaim fun handler isBuiltin => ?_)
        (by simp [isKey, isFloat])
      exact Handler.succeeds_detectNative_of_not_float isBuiltin noNumber
  · rw [Bool.not_eq_true] at isKey
    exact iff_of_false (not_succeeds_detectNative_of_not_key isKey)
      (by simp [isKey])

theorem exists_of_nativeFallback
    {resolvedType : Wire}
    {tag : String}
    (chosen : standard.nativeFallback resolvedType = .ok tag) :
    ∃ handler ∈ Handler.nativeHandlers, handler.tag = tag := by
  have areTags :
      nativeFallbacks.map Prod.snd ⊆ Handler.nativeHandlers.map Handler.tag := by
    decide
  have isText : "string" ∈ Handler.nativeHandlers.map Handler.tag := by
    decide
  have chosenIsTag (wanted : String)
      (isTag : wanted ∈ Handler.nativeHandlers.map Handler.tag) :
          (if standard.has wanted then wanted else "string") ∈
            Handler.nativeHandlers.map Handler.tag := by
    split
    · exact isTag
    · exact isText
  rw [← List.mem_map]
  unfold nativeFallback at chosen
  simp only at chosen
  split at chosen
  · rename_i name
    cases chosen
    refine chosenIsTag _ ?_
    cases isThere : Wire.lookup? name nativeFallbacks with
    | none => exact isText
    | some found =>
        exact areTags (List.mem_map_of_mem (f := Prod.snd) (mem_of_lookup? isThere))
  · split at chosen
    · cases chosen
      exact chosenIsTag _ isText
    · cases chosen

/--
The type of a design variable is that of a handler that claims design variables.
-/
theorem exists_of_detectNative
    {tag : String}
    (detected : standard.detectNative context = .ok tag) :
    ∃ handler ∈ Handler.nativeHandlers, handler.tag = tag := by
  obtain ⟨tag?, isFirst, chosen⟩ := bind_eq_ok_iff.mp detected
  rw [ordered_standard] at isFirst
  cases tag? with
  | some first =>
      obtain rfl := pure_eq_ok_iff.mp chosen
      obtain ⟨handler, isBuiltin, sameTag, claimed⟩ := exists_of_firstClaim isFirst
      exact ⟨handler, Handler.mem_nativeHandlers_of_claimed isBuiltin claimed,
        sameTag⟩
  | none => exact exists_of_nativeFallback chosen

end Registry

namespace Handler

/-- A channel is too large for a double, and all channels before it are numbers. -/
def OverflowsFirst (channels : List Wire) : Prop :=
  MeetsFirst (fun channel => Succeeds channel.toFloat) Wire.Overflows channels

/--
A color has three channels, and one that is too large is reached
when they are read.
-/
def HasOverflowingChannel (data : Wire) : Prop :=
  ∃ r g b,
    Wire.lookup? "r" data.members = some r ∧
      Wire.lookup? "g" data.members = some g ∧
      Wire.lookup? "b" data.members = some b ∧
      OverflowsFirst [r, g, b, (Wire.lookup? "a" data.members).getD (.float 1.0)]

/--
Reading the value of a design variable as the type of a tag ends with a fault.
-/
def StumblesNative (tag : String) (data : Wire) : Prop :=
  (tag = "color" ∧ HasOverflowingChannel data) ∨
    (tag ∈ ["dimension", "number"] ∧ data.Overflows) ∨
    (tag = "fontWeight" ∧ data.number? = none ∧
      FontWeight.HasSeparatedNumber data.display)

theorem endsInOverflow_channel_iff
    {α : Type}
    {channel : Wire}
    {rest : List Wire}
    {next : Float → Except Fault α}
    (alike : ∀ number, EndsInOverflow (next number) ↔ OverflowsFirst rest) :
    EndsInOverflow (channel.toFloat >>= next) ↔
      OverflowsFirst (channel :: rest) := by
  rw [endsInOverflow_bind_iff alike, OverflowsFirst, OverflowsFirst,
    meetsFirst_cons_iff, Wire.endsInOverflow_toFloat_iff]

/--
Channels that are no numbers make a color unreadable; only one that is too
large is a fault.
-/
theorem succeeds_colorOfMembers_iff
    {r g b a : Wire} :
    Succeeds (colorOfMembers r g b a) ↔ ¬ OverflowsFirst [r, g, b, a] := by
  have overflows :
      EndsInOverflow (do
        let r ← r.toFloat
        let g ← g.toFloat
        let b ← b.toFloat
        let a ← a.toFloat
        return Color.ofFloats r g b a) ↔
        OverflowsFirst [r, g, b, a] := by
    refine endsInOverflow_channel_iff fun _ => ?_
    refine endsInOverflow_channel_iff fun _ => ?_
    refine endsInOverflow_channel_iff fun _ => ?_
    refine endsInOverflow_channel_iff fun _ => ?_
    exact iff_of_false (not_endsInOverflow_ok _) (not_meetsFirst_nil _ _)
  rw [← overflows]
  unfold colorOfMembers
  simp only
  split
  · rename_i color isRead
    rw [isRead]
    simp
  · rename_i text isRead
    rw [isRead]
    simp [throw, throwThe, MonadExceptOf.throw]
  · rename_i fault noOverflow isRead
    rw [isRead, endsInOverflow_error_iff]
    refine iff_of_true (succeeds_pure _) ?_
    rintro ⟨text, rfl⟩
    exact noOverflow text rfl

theorem succeeds_colorOfNative_iff
    {data : Wire} :
    Succeeds (colorOfNative data) ↔ ¬ HasOverflowingChannel data := by
  cases data with
  | obj members =>
      unfold colorOfNative HasOverflowingChannel
      simp only [Wire.members]
      split
      · rename_i r g b isR isG isB
        simp [isR, isG, isB, succeeds_colorOfMembers_iff]
      · rename_i isPartial
        refine iff_of_true (succeeds_ok _) ?_
        rintro ⟨r, g, b, isR, isG, isB, _⟩
        exact isPartial r g b isR isG isB
  | _ => simp [colorOfNative, HasOverflowingChannel, Wire.members, Wire.lookup?]

theorem succeeds_strictFloat?_iff
    {data : Wire} :
    Succeeds (strictFloat? data) ↔ ¬ data.Overflows := by
  cases data with
  | int whole => simp [strictFloat?, Number.succeeds_ofInt?_iff, Wire.Overflows]
  | _ => simp [strictFloat?, Wire.Overflows]

theorem succeeds_parse_fontWeight_iff
    {data : Wire} :
    Succeeds (FontWeight.parse data) ↔
      ¬ (data.number? = none ∧ FontWeight.HasSeparatedNumber data.display) := by
  have asText : ∀ raw : Wire, raw.number? = none →
      FontWeight.parse raw = FontWeight.parse (.str raw.display) := by
    intro raw noNumber
    cases raw with
    | bool | int | float => cases noNumber
    | _ => rfl
  by_cases noNumber : data.number? = none
  · rw [asText data noNumber, FontWeight.succeeds_parse_iff]
    simp [noNumber]
  · refine iff_of_true ?_ (fun separated => noNumber separated.1)
    cases data with
    | bool | int | float => exact succeeds_ok _
    | _ => exact (noNumber rfl).elim

/--
A handler that claims design variables takes in every value over which it
does not stumble.
-/
theorem succeeds_parseNative_iff
    {handler : Handler}
    (isNative : handler ∈ nativeHandlers)
    {data : Wire} :
    Succeeds (handler.parseNative data) ↔ ¬ StumblesNative handler.tag data := by
  simp only [nativeHandlers, List.mem_cons, List.not_mem_nil, or_false] at isNative
  rcases isNative with rfl | rfl | rfl | isFontFamily | isBoolean | rfl | rfl
  · refine (succeeds_bind_pure_iff.trans succeeds_colorOfNative_iff).trans ?_
    simp [StumblesNative, color]
  · refine (succeeds_bind_pure_iff.trans succeeds_strictFloat?_iff).trans ?_
    simp [StumblesNative, dimension]
  · refine (succeeds_bind_pure_iff.trans succeeds_parse_fontWeight_iff).trans ?_
    simp [StumblesNative, fontWeight]
  · subst isFontFamily
    refine iff_of_true ?_ (by simp [StumblesNative, fontFamily])
    cases data <;> exact succeeds_ok _
  · subst isBoolean
    refine iff_of_true ?_ (by simp [StumblesNative, boolean])
    cases data <;> exact succeeds_ok _
  · refine (succeeds_bind_pure_iff.trans succeeds_strictFloat?_iff).trans ?_
    simp [StumblesNative, number]
  · exact iff_of_true (succeeds_ok _) (by simp [StumblesNative, string])

end Handler

/-- Whether a design variable counts as a text: it is nothing else. -/
def NativeContext.isPlainText (context : NativeContext) : Bool :=
  !(["COLOR", "BOOLEAN", "FLOAT"].any fun type =>
    context.resolvedType.isText type) &&
    !(context.resolvedType.isText "STRING" && context.hasScope "FONT_FAMILY")

theorem NativeContext.isPlainText_iff
    {context : NativeContext} :
    context.isPlainText = true ↔
      context.resolvedType.isText "COLOR" = false ∧
        context.resolvedType.isText "BOOLEAN" = false ∧
        context.resolvedType.isText "FLOAT" = false ∧
        (context.resolvedType.isText "STRING" && context.hasScope "FONT_FAMILY") =
          false := by
  simp only [isPlainText, List.any_cons, List.any_nil, Bool.or_false,
    Bool.and_eq_true, Bool.not_eq_true', Bool.or_eq_false_iff, and_assoc]

namespace Handler

/--
The handlers that claim design variables and are not that of texts
claim no plain text.
-/
theorem tag_eq_string_of_claims_plainText
    {handler : Handler}
    (isBuiltin : handler ∈ builtins)
    {context : NativeContext}
    (claimed : handler.detectNative context = .ok true)
    (isPlainText : context.isPlainText = true) :
    handler.tag = "string" := by
  obtain ⟨noColor, noTruth, noNumber, noFamily⟩ :=
    NativeContext.isPlainText_iff.mp isPlainText
  have isNative := mem_nativeHandlers_of_claimed isBuiltin claimed
  simp only [nativeHandlers, List.mem_cons, List.not_mem_nil, or_false] at isNative
  rcases isNative with rfl | rfl | rfl | rfl | rfl | rfl | rfl
  · cases noColor.symm.trans (Except.ok.inj claimed)
  · simp [dimension, noNumber] at claimed
  · simp [fontWeight, noNumber] at claimed
  · cases noFamily.symm.trans (Except.ok.inj claimed)
  · cases noTruth.symm.trans (Except.ok.inj claimed)
  · cases noNumber.symm.trans (Except.ok.inj claimed)
  · rfl

/--
A variable that is no plain text is claimed by a handler that is asked
before that of texts.
-/
theorem exists_claim_of_not_plainText
    {context : NativeContext}
    (noPlainText : context.isPlainText = false) :
    ∃ handler ∈ builtins.dropLast, handler.detectNative context = .ok true := by
  have isEarlier : [color, boolean, number, fontFamily] ⊆ builtins.dropLast := by
    simp [builtins]
  simp only [NativeContext.isPlainText, List.any_cons, List.any_nil, Bool.or_false,
    Bool.and_eq_false_iff, Bool.not_eq_false', Bool.or_eq_true] at noPlainText
  rcases noPlainText with (isColor | isTruth | isNumber) | isFamily
  · exact ⟨color, isEarlier (by simp), congrArg Except.ok isColor⟩
  · exact ⟨boolean, isEarlier (by simp), congrArg Except.ok isTruth⟩
  · exact ⟨number, isEarlier (by simp), congrArg Except.ok isNumber⟩
  · exact ⟨fontFamily, isEarlier (by simp), congrArg Except.ok isFamily⟩

/-- Of nothing, only the handler of texts makes a value. -/
theorem parseNative_null
    {handler : Handler}
    (isNative : handler ∈ nativeHandlers) :
    handler.parseNative .null =
      .ok (if handler.tag = "string" then some (.plain (.str "None"))
      else none) := by
  simp only [nativeHandlers, List.mem_cons, List.not_mem_nil, or_false] at isNative
  rcases isNative with rfl | rfl | rfl | rfl | rfl | rfl | rfl
  · rfl
  · rfl
  · have noWeight : FontWeight.parse .null = .ok none := by decide
    simp only [fontWeight, noWeight]
    rfl
  · rfl
  · rfl
  · rfl
  · rfl

/-- A handler that claims design variables reads single values. -/
theorem not_composite_of_native :
    ∀ handler ∈ nativeHandlers, handler.composite = false := by
  decide

end Handler

namespace Registry

/--
The handler of the type of a design variable is one of those that claim
design variables.
-/
theorem native_of_get_detected
    {context : NativeContext}
    {tag : String}
    (detected : standard.detectNative context = .ok tag)
    {handler : Handler}
    (isHandler : standard.get (.str tag) = .ok handler) :
    handler ∈ Handler.nativeHandlers ∧ handler.tag = tag := by
  obtain ⟨claimant, isNative, rfl⟩ := exists_of_detectNative detected
  have isFound := get_standard (Handler.nativeHandlers_subset_builtins isNative)
  cases isFound.symm.trans isHandler
  exact ⟨isNative, rfl⟩

/-- A variable that counts as a text falls back to texts. -/
theorem nativeFallback_of_plainText
    {context : NativeContext}
    {tag : String}
    (isPlainText : context.isPlainText = true)
    (chosen : standard.nativeFallback context.resolvedType = .ok tag) :
    tag = "string" := by
  obtain ⟨noColor, noTruth, noNumber, _⟩ :=
    NativeContext.isPlainText_iff.mp isPlainText
  generalize context.resolvedType = resolvedType at noColor noTruth noNumber chosen
  cases resolvedType with
  | str name =>
      have isOther : "COLOR" ≠ name ∧ "BOOLEAN" ≠ name ∧ "FLOAT" ≠ name := by
        refine ⟨?_, ?_, ?_⟩
        · rintro rfl
          cases noColor
        · rintro rfl
          cases noTruth
        · rintro rfl
          cases noNumber
      have isText : (Wire.lookup? name nativeFallbacks).getD "string" =
          "string" := by
        simp only [nativeFallbacks, Wire.lookup?, isOther, if_false]
        split <;> rfl
      simp only [nativeFallback, isText, ite_self] at chosen
      exact (Except.ok.inj chosen).symm
  | _ =>
      simp only [nativeFallback, ite_self] at chosen
      split at chosen
      · exact (Except.ok.inj chosen).symm
      · cases chosen

/--
The type of a design variable is that of texts just in case it counts as a text.
-/
theorem detectNative_eq_string_iff
    {context : NativeContext}
    {tag : String}
    (detected : standard.detectNative context = .ok tag) :
    tag = "string" ↔ context.isPlainText = true := by
  have split : Handler.builtins = Handler.builtins.dropLast ++ [Handler.string] :=
    rfl
  obtain ⟨tag?, isFirst, chosen⟩ := bind_eq_ok_iff.mp detected
  rw [ordered_standard] at isFirst
  constructor
  · rintro rfl
    by_contra noPlainText
    obtain ⟨handler, isEarlier, claimed⟩ :=
      Handler.exists_claim_of_not_plainText (Bool.not_eq_true _ ▸ noPlainText)
    have isBuiltin : handler ∈ Handler.builtins :=
      (List.dropLast_sublist _).subset isEarlier
    cases tag? with
    | none =>
        cases claimed.symm.trans
          (declines_of_firstClaim_eq_none isFirst handler isBuiltin)
    | some first =>
        obtain rfl := pure_eq_ok_iff.mp chosen
        rw [firstClaim_eq_some_iff, split, meetsFirst_append_iff] at isFirst
        rcases isFirst with isMet | ⟨allDecline, _⟩
        · obtain ⟨other, isOther, _, isTexts⟩ := isMet.exists_met
          have otherTags :
              ∀ other ∈ Handler.builtins.dropLast, other.tag ≠ "string" := by
            decide
          exact otherTags other isOther isTexts
        · cases claimed.symm.trans (allDecline handler isEarlier)
  · intro isPlainText
    cases tag? with
    | some first =>
        obtain rfl := pure_eq_ok_iff.mp chosen
        obtain ⟨handler, isBuiltin, rfl, claimed⟩ := exists_of_firstClaim isFirst
        exact Handler.tag_eq_string_of_claims_plainText isBuiltin claimed
          isPlainText
    | none => exact nativeFallback_of_plainText isPlainText chosen

end Registry

end DesignTokens
