import DesignTokens.Proofs.Registry.Handlers
import DesignTokens.Proofs.Value.Reading

namespace DesignTokens

/-!
# Detection without a fault

Detecting the type of a text under a path ends with a fault for two kinds of
text: an `oklch` color with an infinite hue, and a text of digit-like characters
that is no numeral, where a font weight may stand and neither a shadow nor a
length is meant.  The handler that claims a text reads it, with the faults of
its type and no others.
-/

open DesignTokens.Text

namespace CompactContext

/-- Detecting the type of the text under the path ends with a fault. -/
def Misleads (context : CompactContext) : Prop :=
  Color.Overflows context.value ∨
    (context.pathHas ["weight", "typography", "font", "text"] = true ∧
      Handler.detectsShadow context = false ∧
      Handler.detectsDimension context = false ∧
      NoNumeral context.stripped)

/-- In lowercase, the text between its blanks is that of the value. -/
theorem ofList_lowerChars_stripped
    (context : CompactContext) :
    String.ofList (lowerChars context.stripped) = lower (trim context.value) := by
  rw [lower, trim, String.toList_ofList, stripped]

end CompactContext

namespace Handler

/-- Whether a text is a color can be told unless it overflows. -/
theorem succeeds_detectsColor_iff
    {context : CompactContext} :
    Succeeds (detectsColor context) ↔ ¬ Color.Overflows context.value := by
  have parsed :
      Succeeds ((Color.parse (lower (trim context.value))).map Option.isSome) ↔
        ¬ Color.Overflows context.value := by
    rw [succeeds_map_iff, Color.succeeds_parse_iff, Color.overflows_lower_trim_iff]
  have notOklch : startsWith "oklch".toList (lower (trim context.value)).toList =
      false → ¬ Color.Overflows context.value := by
    intro isOther overflows
    cases isOther.symm.trans overflows.1
  unfold detectsColor
  simp only [context.ofList_lowerChars_stripped]
  split
  · rename_i isHex
    split
    · exact iff_of_true (succeeds_ok _)
        (notOklch (not_startsWith_of_head_ne (by decide) isHex))
    · exact parsed
  · split
    · exact parsed
    · rename_i isOther
      have isNotOklch :
          startsWith "oklch".toList (lower (trim context.value)).toList =
            false := by
        simp only [startsWithAny, List.any_cons, List.any_nil, Bool.or_false,
          Bool.or_eq_true, not_or, Bool.not_eq_true] at isOther
        exact isOther.2.2
      split
      · exact iff_of_true (succeeds_ok _) (notOklch isNotOklch)
      · exact iff_of_true (succeeds_ok _) (notOklch isNotOklch)

theorem detectsColor_of_digits
    {context : CompactContext}
    (digits : allDigitLike context.stripped = true) :
    detectsColor context = .ok false := by
  have kept : lowerChars context.stripped = context.stripped :=
    allDigitLike_lowerChars (.inr digits)
  have digitsText : allDigitLike (String.ofList context.stripped).toList =
      true := by
    rwa [String.toList_ofList]
  have noHex : startsWith ['#'] context.stripped = false :=
    startsWith_of_digits digits (by decide) []
  have noFunction : startsWithAny ["rgb", "hsl", "oklch"] context.stripped =
      false := by
    simp only [startsWithAny, List.any_cons, List.any_nil, Bool.or_false,
      Bool.or_eq_false_iff]
    exact ⟨startsWith_of_digits digits (by decide) _,
      startsWith_of_digits digits (by decide) _,
      startsWith_of_digits digits (by decide) _⟩
  have noName : Wire.lookup? (String.ofList context.stripped) Color.named =
      none := by
    rw [Wire.lookup?_eq_none_iff]
    exact not_mem_of_digits digitsText (by decide)
  have noKeyword : String.ofList context.stripped ∉ Color.keywords :=
    not_mem_of_digits digitsText (by decide)
  simp [detectsColor, kept, noHex, noFunction, Wire.has, noName, noKeyword]

/-- Reading a text as the type of a tag ends with a fault. -/
def Stumbles (tag raw : String) : Prop :=
  (tag = "typography" ∧ Typography.HasSeparatedWeight raw) ∨
    (tag = "gradient" ∧ Gradient.HasOverflow raw) ∨
    (tag = "shadow" ∧ Shadow.HasOverflow raw) ∨
    (tag = "border" ∧ Border.HasOverflow raw) ∨
    (tag = "animation" ∧ Animation.HasNoNumeral raw)

/-- Reading a text as one of the other types never ends with a fault. -/
theorem not_stumbles_of_not_mem
    {tag raw : String}
    (isOther : tag ∉ ["typography", "gradient", "shadow", "border", "animation"]) :
    ¬ Stumbles tag raw := by
  rintro (⟨rfl, _⟩ | ⟨rfl, _⟩ | ⟨rfl, _⟩ | ⟨rfl, _⟩ | ⟨rfl, _⟩)
  all_goals simp at isOther

/-- The color handler reads a text, or finds it unreadable, unless it overflows. -/
theorem succeeds_parseCompact_color_iff
    {raw : String} :
    Succeeds (color.parseCompact raw) ↔ ¬ Color.Overflows raw :=
  succeeds_bind_pure_iff.trans Color.succeeds_parse_iff

/-- The font weight handler reads what has been found to be a font weight. -/
theorem succeeds_parseCompact_fontWeight
    {raw : String}
    (isWeight : FontWeight.isWeightText raw = .ok true) :
    Succeeds (fontWeight.parseCompact raw) :=
  succeeds_bind_pure_iff.mpr
    (FontWeight.succeeds_parse_of_isWeightText isWeight)

/-- The typography handler stumbles over a weight that is a separated number. -/
theorem succeeds_parseCompact_typography_iff
    {raw : String} :
    Succeeds (typography.parseCompact raw) ↔ ¬ Typography.HasSeparatedWeight raw :=
  succeeds_bind_pure_iff.trans Typography.succeeds_parse_iff

theorem succeeds_parseCompact_gradient_iff
    {raw : String} :
    Succeeds (gradient.parseCompact raw) ↔ ¬ Gradient.HasOverflow raw :=
  succeeds_bind_pure_iff.trans Gradient.succeeds_parse_iff

theorem succeeds_parseCompact_shadow_iff
    {raw : String} :
    Succeeds (shadow.parseCompact raw) ↔ ¬ Shadow.HasOverflow raw :=
  succeeds_bind_pure_iff.trans Shadow.succeeds_parse_iff

theorem succeeds_parseCompact_border_iff
    {raw : String} :
    Succeeds (border.parseCompact raw) ↔ ¬ Border.HasOverflow raw :=
  succeeds_bind_pure_iff.trans Border.succeeds_parse_iff

theorem succeeds_parseCompact_animation_iff
    {raw : String} :
    Succeeds (animation.parseCompact raw) ↔ ¬ Animation.HasNoNumeral raw :=
  succeeds_bind_pure_iff.trans Animation.succeeds_parse_iff

/--
A handler that claims a text reads it, or finds it unreadable,
unless it stumbles.
-/
theorem succeeds_parseCompact_iff
    {handler : Handler}
    (isBuiltin : handler ∈ builtins)
    {context : CompactContext}
    (claimed : handler.detectCompact context = .ok true) :
    Succeeds (handler.parseCompact context.value) ↔
      ¬ Stumbles handler.tag context.value := by
  have total (reads : Succeeds (handler.parseCompact context.value))
    (isOther : handler.tag ∉
      ["typography", "gradient", "shadow", "border", "animation"]) :
          Succeeds (handler.parseCompact context.value) ↔
            ¬ Stumbles handler.tag context.value :=
    iff_of_true reads (not_stumbles_of_not_mem isOther)
  simp only [builtins, List.mem_cons, List.not_mem_nil, or_false] at isBuiltin
  rcases isBuiltin with
    rfl | rfl | rfl | rfl | rfl | isFontWeight | rfl | rfl | rfl | rfl | rfl |
    rfl | rfl | rfl | rfl | rfl
  · simp only [color] at claimed
    have noOverflow := succeeds_detectsColor_iff.mp ⟨true, claimed⟩
    exact total (succeeds_parseCompact_color_iff.mpr noOverflow) (by decide)
  · rw [succeeds_parseCompact_typography_iff]
    simp [Stumbles, typography]
  · rw [succeeds_parseCompact_gradient_iff]
    simp [Stumbles, gradient]
  · rw [succeeds_parseCompact_shadow_iff]
    simp [Stumbles, shadow]
  · exact total (succeeds_ok _) (by decide)
  · subst isFontWeight
    have isWeight : FontWeight.isWeightText context.value = .ok true := by
      simp only [fontWeight] at claimed
      split at claimed
      · exact claimed
      · cases claimed
    exact total (succeeds_parseCompact_fontWeight isWeight) (by decide)
  · exact total (succeeds_ok _) (by decide)
  · rw [succeeds_parseCompact_border_iff]
    simp [Stumbles, border]
  · exact total (succeeds_ok _) (by decide)
  · exact total (succeeds_ok _) (by decide)
  · exact total (succeeds_ok _) (by decide)
  · exact total (succeeds_ok _) (by decide)
  · exact total (succeeds_ok _) (by decide)
  · rw [succeeds_parseCompact_animation_iff]
    simp [Stumbles, animation]
  · exact total (succeeds_ok _) (by decide)
  · exact total (succeeds_ok _) (by decide)

/-- A handler of single values reads what it claims, or finds it unreadable. -/
theorem succeeds_parseCompact_of_single
    {handler : Handler}
    (isBuiltin : handler ∈ builtins)
    {context : CompactContext}
    (claimed : handler.detectCompact context = .ok true)
    (isSingle : handler.composite = false) :
    Succeeds (handler.parseCompact context.value) := by
  have others : ∀ handler ∈ builtins, handler.composite = false →
      handler.tag ∉
        ["typography", "gradient", "shadow", "border", "animation"] := by
    decide
  rw [succeeds_parseCompact_iff isBuiltin claimed]
  exact not_stumbles_of_not_mem (others handler isBuiltin isSingle)

end Handler

namespace Registry

variable {Context : Type} {claims : Handler → Context → Except Fault Bool}
  {context : Context}

/--
The first claim is that of a handler that claims, when all handlers
before it decline.
-/
theorem firstClaim_eq_some_iff
    {handlers : List Handler}
    {tag : String} :
    firstClaim claims context handlers = .ok (some tag) ↔
      MeetsFirst (fun handler => claims handler context = .ok false)
        (fun handler => claims handler context = .ok true ∧ handler.tag = tag)
        handlers := by
  induction handlers with
  | nil => simp [firstClaim]
  | cons handler rest inductionHypothesis =>
      rw [firstClaim, meetsFirst_cons_iff, ← inductionHypothesis, bind_eq_ok_iff]
      constructor
      · rintro ⟨claimed, isAsked, next⟩
        cases claimed with
        | true => exact .inl ⟨isAsked, Option.some.inj (pure_eq_ok_iff.mp next)⟩
        | false => exact .inr ⟨isAsked, next⟩
      · rintro (⟨isAsked, rfl⟩ | ⟨isAsked, next⟩)
        · exact ⟨true, isAsked, rfl⟩
        · exact ⟨false, isAsked, next⟩

/-- The first claim is that of a handler that claims. -/
theorem exists_of_firstClaim
    {handlers : List Handler}
    {tag : String}
    (isFirst : firstClaim claims context handlers = .ok (some tag)) :
    ∃ handler ∈ handlers, handler.tag = tag ∧
      claims handler context = .ok true := by
  obtain ⟨handler, isHandler, claimed, sameTag⟩ :=
    (firstClaim_eq_some_iff.mp isFirst).exists_met
  exact ⟨handler, isHandler, sameTag, claimed⟩

/-- Where there is no claim, every handler declines. -/
theorem declines_of_firstClaim_eq_none
    {handlers : List Handler}
    (unclaimed : firstClaim claims context handlers = .ok none) :
    ∀ handler ∈ handlers, claims handler context = .ok false := by
  induction handlers with
  | nil => simp
  | cons handler rest inductionHypothesis =>
      obtain ⟨claimed, isAsked, next⟩ := bind_eq_ok_iff.mp unclaimed
      cases claimed with
      | true => cases pure_eq_ok_iff.mp next
      | false => exact List.forall_mem_cons.mpr ⟨isAsked, inductionHypothesis next⟩

/-- A handler is asked, and those after it are when it does not claim. -/
theorem succeeds_firstClaim_cons_iff
    {handler : Handler}
    {rest : List Handler} :
    Succeeds (firstClaim claims context (handler :: rest)) ↔
      claims handler context = .ok true ∨
        (claims handler context = .ok false ∧
          Succeeds (firstClaim claims context rest)) := by
  rw [firstClaim, succeeds_bind_iff]
  constructor
  · rintro ⟨claimed, isAsked, next⟩
    cases claimed with
    | true => exact .inl isAsked
    | false => exact .inr ⟨isAsked, next⟩
  · rintro (isAsked | ⟨isAsked, next⟩)
    · exact ⟨true, isAsked, succeeds_pure _⟩
    · exact ⟨false, isAsked, next⟩

/-- A handler that can tell claims a text, or leaves it to those after it. -/
theorem succeeds_firstClaim_cons_of_ok
    {handler : Handler}
    {rest : List Handler}
    {claimed : Bool}
    (tells : claims handler context = .ok claimed) :
    Succeeds (firstClaim claims context (handler :: rest)) ↔
      claimed = true ∨ Succeeds (firstClaim claims context rest) := by
  rw [succeeds_firstClaim_cons_iff, tells]
  cases claimed <;> simp

/--
Before handlers that come to a first claim, or to none, a handler has to tell.
-/
theorem succeeds_firstClaim_cons_of_rest
    {handler : Handler}
    {rest : List Handler}
    (restTell : Succeeds (firstClaim claims context rest)) :
    Succeeds (firstClaim claims context (handler :: rest)) ↔
      Succeeds (claims handler context) := by
  rw [succeeds_firstClaim_cons_iff]
  constructor
  · rintro (isAsked | ⟨isAsked, _⟩)
    · exact ⟨true, isAsked⟩
    · exact ⟨false, isAsked⟩
  · rintro ⟨claimed, isAsked⟩
    cases claimed with
    | true => exact .inl isAsked
    | false => exact .inr ⟨isAsked, restTell⟩

/--
Handlers that can all tell whether they claim come to a first claim, or to none.
-/
theorem succeeds_firstClaim
    {handlers : List Handler}
    (canTell : ∀ handler ∈ handlers, Succeeds (claims handler context)) :
    Succeeds (firstClaim claims context handlers) := by
  induction handlers with
  | nil => exact succeeds_ok none
  | cons handler rest inductionHypothesis =>
      obtain ⟨handlerTells, restTell⟩ := List.forall_mem_cons.mp canTell
      exact (succeeds_firstClaim_cons_of_rest (inductionHypothesis restTell)).mpr
        handlerTells

end Registry

namespace Registry

/--
The type of a text is that of the first handler of this library that claims it.
-/
theorem detectCompact_eq_ok_iff
    {context : CompactContext}
    {tag : String} :
    standard.detectCompact context = .ok tag ↔
      MeetsFirst (fun handler => handler.detectCompact context = .ok false)
        (fun handler => handler.detectCompact context = .ok true ∧
          handler.tag = tag)
        Handler.builtins := by
  rw [← firstClaim_eq_some_iff, detectCompact, ordered_standard, bind_eq_ok_iff]
  constructor
  · rintro ⟨tag?, isFirst, chosen⟩
    cases tag? with
    | some first =>
        rw [← pure_eq_ok_iff.mp chosen]
        exact isFirst
    | none =>
        -- Texts take whatever is left.
        have isString : Handler.string ∈ Handler.builtins :=
          by simp [Handler.builtins]
        cases declines_of_firstClaim_eq_none isFirst _ isString
  · intro isFirst
    exact ⟨some tag, isFirst, rfl⟩

/-- Some handler of this library claims every text whose type is detected. -/
theorem exists_of_detectCompact
    {context : CompactContext}
    {tag : String}
    (detected : standard.detectCompact context = .ok tag) :
    ∃ handler ∈ Handler.builtins,
      handler.tag = tag ∧ handler.detectCompact context = .ok true := by
  obtain ⟨handler, isHandler, claimed, sameTag⟩ :=
    (detectCompact_eq_ok_iff.mp detected).exists_met
  exact ⟨handler, isHandler, sameTag, claimed⟩

/--
Whether a text may be a font weight can be told unless it is
digit-like and no numeral.
-/
theorem succeeds_detectCompact_fontWeight_iff
    {context : CompactContext} :
    Succeeds (Handler.fontWeight.detectCompact context) ↔
      ¬ (context.pathHas ["weight", "typography", "font", "text"] = true ∧
        NoNumeral context.stripped) := by
  simp only [Handler.fontWeight]
  split
  · rename_i isHinted
    rw [FontWeight.succeeds_isWeightText_iff]
    simp [isHinted, CompactContext.stripped]
  · rename_i notHinted
    simp [notHinted]

/--
The handlers after that of font weights can all tell whether they claim a text.
-/
theorem succeeds_firstClaim_after_fontWeight
    (context : CompactContext) :
    Succeeds
      (firstClaim Handler.detectCompact context (Handler.builtins.drop 6)) := by
  refine succeeds_firstClaim (fun handler isLater => ?_)
  simp only [Handler.builtins, List.drop_succ_cons, List.drop_zero, List.mem_cons,
    List.not_mem_nil, or_false] at isLater
  rcases isLater with rfl | rfl | rfl | rfl | rfl | rfl | rfl | rfl | rfl | rfl
  all_goals exact succeeds_ok _

/--
The type of a text is detected when the handlers come to a first
claim, or to none.
-/
theorem succeeds_detectCompact_iff_firstClaim
    {context : CompactContext} :
    Succeeds (standard.detectCompact context) ↔
      Succeeds (firstClaim Handler.detectCompact context Handler.builtins) := by
  rw [detectCompact, ordered_standard]
  refine succeeds_bind_of_total (fun tag? => ?_)
  cases tag? with
  | some tag => exact succeeds_pure tag
  | none => exact succeeds_ok "string"

/--
The handlers after that of colors come to a first claim, or to none, when one of
them claims the text before font weights are asked for, or font weights can tell.
-/
theorem succeeds_firstClaim_after_color_iff
    {context : CompactContext} :
    Succeeds (firstClaim Handler.detectCompact context (Handler.builtins.drop 1)) ↔
      startsWith "Font(".toList context.stripped = true ∨
        Gradient.startsLikeGradient context.stripped = true ∨
        Handler.detectsShadow context = true ∨
        Handler.detectsDimension context = true ∨
        Succeeds (Handler.fontWeight.detectCompact context) := by
  have typographyTells : Handler.typography.detectCompact context =
      .ok (startsWith "Font(".toList context.stripped) := rfl
  have gradientTells : Handler.gradient.detectCompact context =
      .ok (Gradient.startsLikeGradient context.stripped) := rfl
  have shadowTells : Handler.shadow.detectCompact context =
      .ok (Handler.detectsShadow context) := rfl
  have dimensionTells : Handler.dimension.detectCompact context =
      .ok (Handler.detectsDimension context) := rfl
  -- From the last handler to the first, each of the four that always tell goes
  -- before the rest.
  rw [← succeeds_firstClaim_cons_of_rest
    (succeeds_firstClaim_after_fontWeight context), ← succeeds_firstClaim_cons_of_ok
    dimensionTells, ← succeeds_firstClaim_cons_of_ok
    shadowTells, ← succeeds_firstClaim_cons_of_ok
    gradientTells, ← succeeds_firstClaim_cons_of_ok typographyTells]
  rfl

/-- The type of a text is detected unless the text misleads. -/
theorem succeeds_detectCompact_iff
    {context : CompactContext} :
    Succeeds (standard.detectCompact context) ↔ ¬ context.Misleads := by
  have colorTells : Succeeds (Handler.color.detectCompact context) ↔
      ¬ Color.Overflows context.value := by
    simp only [Handler.color]
    exact Handler.succeeds_detectsColor_iff
  have colorFirst : Handler.builtins = Handler.color :: Handler.builtins.drop 1 :=
    rfl
  rw [succeeds_detectCompact_iff_firstClaim, colorFirst,
    succeeds_firstClaim_cons_iff, succeeds_firstClaim_after_color_iff,
    succeeds_detectCompact_fontWeight_iff]
  constructor
  · rintro claimed (overflows | ⟨isHinted, noShadow, noLength, noNumeral⟩)
    · rcases claimed with claimed | ⟨claimed, _⟩
      · exact colorTells.mp ⟨_, claimed⟩ overflows
      · exact colorTells.mp ⟨_, claimed⟩ overflows
    -- No handler before that of font weights claims digit-like characters, so it is
    -- asked.
    · have digits := fun c => @NoNumeral.isDigitLike_of_mem _ noNumeral c
      have noColor : Handler.color.detectCompact context = .ok false := by
        simp only [Handler.color]
        exact Handler.detectsColor_of_digits noNumeral.digitLike
      have noStyle : startsWith "Font(".toList context.stripped = false :=
        startsWith_of_digits noNumeral.digitLike (by decide) _
      have noGradient := Gradient.startsLikeGradient_of_digits digits
      rcases claimed with
        claimed | ⟨_, claimed | claimed | claimed | claimed | claimed⟩
      · cases noColor.symm.trans claimed
      · cases noStyle.symm.trans claimed
      · cases noGradient.symm.trans claimed
      · cases noShadow.symm.trans claimed
      · cases noLength.symm.trans claimed
      · exact claimed ⟨isHinted, noNumeral⟩
  · intro clear
    obtain ⟨claimed, isAsked⟩ :=
      colorTells.mpr (fun overflows => clear (.inl overflows))
    cases claimed with
    | true => exact .inl isAsked
    | false =>
        refine .inr ⟨isAsked, ?_⟩
        by_cases isShadow : Handler.detectsShadow context = true
        · exact .inr (.inr (.inl isShadow))
        · by_cases isLength : Handler.detectsDimension context = true
          · exact .inr (.inr (.inr (.inl isLength)))
          · refine .inr (.inr (.inr (.inr ?_)))
            rintro ⟨isHinted, noNumeral⟩
            rw [Bool.not_eq_true] at isShadow isLength
            exact clear (.inr ⟨isHinted, isShadow, isLength, noNumeral⟩)

end Registry

end DesignTokens
