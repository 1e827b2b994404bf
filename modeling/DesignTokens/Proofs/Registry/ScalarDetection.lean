import DesignTokens.Proofs.Registry.Scalars

namespace DesignTokens

/-!
# Detection of scalars

A scalar is claimed by a handler of single values, or read as the animation that
it names, or it stands under a path where shadows or keyframes are expected and
goes unread.
-/

open DesignTokens.Text

namespace PlainScalar

/-- Read as an animation, a word makes up one. -/
theorem exists_animation_of_word
    {raw : String}
    (isWord : String.ofList (lowerChars (trimChars raw.toList)) ∈ scalarWords) :
    ∃ animation, Animation.parse raw = .ok (some animation) := by
  have plain : PlainScalar (trimChars raw.toList) := .word isWord
  have noCurve : CubicBezier.find? (trimChars raw.toList) = none :=
    CubicBezier.find?_eq_none_of_not_mem (plain.not_mem_of_mem_marks (by decide))
  have isThere : trimChars raw.toList ≠ [] := by
    intro isEmpty
    rw [isEmpty] at isWord
    exact absurd isWord (by decide)
  have oneWord : words (trimChars raw.toList) = [trimChars raw.toList] :=
    words_of_not_blank isThere (fun c isChar => not_isBlank_of_word isWord isChar)
  have isNamed : String.ofList (trimChars raw.toList) ≠ "" := by
    simpa using isThere
  have noName : (Animation.Found.mk "" [] none .null .null .null .null).name = "" :=
    rfl
  unfold Animation.parse
  simp only [takeCurve, noCurve, Option.map_none, oneWord, List.foldlM_cons,
    List.foldlM_nil, addWord_of_word isWord noName, ok_bind]
  exact ⟨_, bind_eq_ok_iff.mpr ⟨_, rfl, if_neg isNamed⟩⟩

variable {context : CompactContext}

/-- No plain scalar is a text style. -/
theorem typography_declines
    (plain : PlainScalar context.stripped) :
    Handler.typography.detectCompact context = .ok false := by
  refine congrArg Except.ok ?_
  rw [← Bool.not_eq_true]
  intro starts
  have isOpening : '(' ∈ "Font(".toList := by decide
  exact plain.not_mem_of_mem_marks (by decide) (mem_of_startsWith starts isOpening)

/-- No plain scalar is a gradient. -/
theorem gradient_declines
    (plain : PlainScalar context.stripped) :
    Handler.gradient.detectCompact context = .ok false := by
  refine congrArg Except.ok ?_
  rw [← Bool.not_eq_true]
  intro isGradient
  exact plain.not_mem_of_mem_marks (by decide)
    (Gradient.mem_of_startsLikeGradient isGradient)

/-- No plain scalar is a curve. -/
theorem cubicBezier_declines
    (plain : PlainScalar context.stripped) :
    Handler.cubicBezier.detectCompact context = .ok false := by
  refine congrArg Except.ok ?_
  rw [← Bool.not_eq_true]
  intro starts
  have isOpening : '(' ∈ "cubic-bezier(".toList := by decide
  exact plain.not_mem_of_mem_marks (by decide) (mem_of_startsWith starts isOpening)

/--
A plain scalar is meant as a shadow exactly under the path of one,
unless it is a number.
-/
theorem detectsShadow_iff
    (plain : PlainScalar context.stripped) :
    Handler.detectsShadow context = true ↔
      context.pathHas ["shadow", "elevation"] = true ∧
        isBareNumber context.stripped = false := by
  have noEffect : startsWith "Effect(".toList context.stripped = false := by
    rw [← Bool.not_eq_true]
    intro starts
    have isOpening : '(' ∈ "Effect(".toList := by decide
    exact plain.not_mem_of_mem_marks (by decide)
      (mem_of_startsWith starts isOpening)
  have noHash : startsWith ['#'] context.stripped = false := by
    rw [← Bool.not_eq_true]
    intro starts
    exact plain.not_mem_of_mem_marks (by decide)
      (mem_of_startsWith starts List.mem_cons_self)
  unfold Handler.detectsShadow
  simp only [noEffect, noHash, Bool.false_eq_true, if_false, Bool.or_false]
  cases context.pathHas ["shadow", "elevation"] <;> simp

/-- Without a unit of length, no plain scalar is a border. -/
theorem border_declines
    (plain : PlainScalar context.stripped)
    (notLength : Dimension.hasUnit context.stripped = false) :
    Handler.border.detectCompact context = .ok false := by
  refine congrArg Except.ok ?_
  rw [← Bool.not_eq_true]
  intro isBorder
  obtain ⟨c, isChar, blank⟩ := Border.exists_blank_of_startsLikeBorder isBorder
  cases blank.symm.trans (plain.not_isBlank_of_mem notLength isChar)

/-- A plain scalar that is neither a length nor a time span is no transition. -/
theorem transition_declines
    (plain : PlainScalar context.stripped)
    (notLength : Dimension.hasUnit context.stripped = false)
    (notSpan : Duration.isExplicit context.stripped = false) :
    Handler.transition.detectCompact context = .ok false := by
  have noSpan : (words context.stripped).any Duration.isExplicit = false := by
    by_cases isEmpty : context.stripped = []
    · rw [isEmpty]
      rfl
    · rw [words_of_not_blank isEmpty
        (fun c isChar => plain.not_isBlank_of_mem notLength isChar), List.any_cons,
        notSpan]
      rfl
  simp only [Handler.transition, noSpan, Bool.and_false]

/-- No plain scalar is a list of steps. -/
theorem keyframes_detectCompact
    (plain : PlainScalar context.stripped)
    (isTrimmed : context.value.toList = context.stripped) :
    Handler.keyframes.detectCompact context =
      .ok (context.pathHas ["keyframe"]) := by
  have noColon : ':' ∉ context.value.toList := by
    rw [isTrimmed]
    exact plain.not_mem_of_mem_marks (by decide)
  simp only [Handler.keyframes]
  simp [noColon]

/--
A plain scalar that is claimed as an animation and is no length or
duration is read as one.
-/
theorem animation_reads
    (plain : PlainScalar context.stripped)
    (notLength : Dimension.hasUnit context.stripped = false)
    (notSpan : Duration.isExplicit context.stripped = false)
    (claimed : Handler.animation.detectCompact context = .ok true) :
    ∃ read, Handler.animation.parseCompact context.value = .ok (some read) := by
  cases plain with
  | length isLength => cases isLength.symm.trans notLength
  | number isNumber =>
      have isNumeral := numeral_of_isBareNumber isNumber
      have kept : lowerChars context.stripped = context.stripped :=
        lowerFrom_of_settled (fun c isChar =>
          Number.isSettled_of_isNumeralChar (isNumeral.isNumeralChar c isChar)) []
      -- Every hint of an animation has a letter.
      have hasLetter : ∀ hint ∈ ["ms", "s", "ease", "linear", "infinite"],
          hint.toList.all Number.isNumeralChar = false := by
        decide
      have hinted := (Bool.and_eq_true_iff.mp (Except.ok.inj claimed)).2
      obtain ⟨hint, isHint, isThere⟩ := List.any_eq_true.mp hinted
      rw [kept] at isThere
      have noLetter : hint.toList.all Number.isNumeralChar = true := by
        refine List.all_eq_true.mpr (fun c isChar => ?_)
        exact isNumeral.isNumeralChar c (mem_of_contains isThere isChar)
      cases noLetter.symm.trans (hasLetter hint isHint)
  | duration explicit => cases explicit.symm.trans notSpan
  | word isWord =>
      obtain ⟨animation, isRead⟩ := exists_animation_of_word isWord
      exact ⟨.animation animation,
        by simp only [Handler.animation, isRead, ok_bind]; rfl⟩

/-- No plain scalar is read as a shadow. -/
theorem shadow_unread
    (plain : PlainScalar context.stripped) :
    Handler.shadow.parseCompact context.value = .ok none := by
  have noShadow : Shadow.parse context.value = .ok none :=
    Shadow.parse_eq_none (plain.not_mem_of_mem_marks (by decide))
      (plain.not_mem_of_mem_marks (by decide)) (plain.hasWholeWord_inset none)
      plain.noDigit_behind_blank
  simp only [Handler.shadow, noShadow, ok_bind]
  rfl

/-- No plain scalar is read as keyframes. -/
theorem keyframes_unread
    (plain : PlainScalar context.stripped)
    (isTrimmed : context.value.toList = context.stripped) :
    Handler.keyframes.parseCompact context.value = .ok none := by
  have noColon : ':' ∉ context.value.toList := by
    rw [isTrimmed]
    exact plain.not_mem_of_mem_marks (by decide)
  simp only [Handler.keyframes, Keyframes.parse_of_not_mem noColon, Option.map_none]

end PlainScalar

/-- The handlers that are asked before that of keyframes and may claim a scalar. -/
def Handler.scalarClaimants : List Handler :=
  [color, shadow, dimension, fontWeight, fontFamily, duration, boolean]

/-- Under the path of a scalar a composite value is expected. -/
inductive CompactContext.ExpectsComposite (context : CompactContext) : Prop where
  | shadow :
      Handler.detectsColor context = .ok false →
      context.pathHas ["shadow", "elevation"] = true →
      isBareNumber context.stripped = false →
      ExpectsComposite context
  | keyframes :
      context.pathHas ["keyframe"] = true →
      (∀ handler ∈ Handler.scalarClaimants, handler.detectCompact context =
        .ok false) →
      ExpectsComposite context

/-- A handler is the first of some to claim a text. -/
def CompactContext.IsFirst
    (context : CompactContext)
    (handler : Handler)
    (handlers : List Handler) : Prop :=
  MeetsFirst (fun other => other.detectCompact context = .ok false)
    (fun other => other.detectCompact context = .ok true ∧ other = handler) handlers

namespace CompactContext.IsFirst

variable {context : CompactContext} {handler other : Handler} {rest : List Handler}

theorem cases_cons
    (isFirst : context.IsFirst handler (other :: rest)) :
    (other.detectCompact context = .ok true ∧ other = handler) ∨
      (other.detectCompact context = .ok false ∧ context.IsFirst handler rest) :=
  meetsFirst_cons_iff.mp isFirst

theorem rest_of_declined
    (isFirst : context.IsFirst handler (other :: rest))
    (declined : other.detectCompact context = .ok false) :
    context.IsFirst handler rest := by
  rcases isFirst.cases_cons with ⟨claimed, _⟩ | ⟨_, later⟩
  · cases declined.symm.trans claimed
  · exact later

end CompactContext.IsFirst

/-- The type of a text is that of the handler which is the first to claim it. -/
theorem CompactContext.isFirst_iff
    {context : CompactContext}
    {handler : Handler}
    (isBuiltin : handler ∈ Handler.builtins) :
    context.IsFirst handler Handler.builtins ↔
      Registry.standard.detectCompact context = .ok handler.tag := by
  rw [Registry.detectCompact_eq_ok_iff]
  constructor
  · intro isFirst
    refine isFirst.imp ?_
    rintro _ _ ⟨claimed, rfl⟩
    exact ⟨claimed, rfl⟩
  · intro isFirst
    refine isFirst.imp ?_
    rintro other isOther ⟨claimed, sameTag⟩
    exact ⟨claimed, Registry.eq_of_sameTag isOther isBuiltin sameTag⟩

/-- What becomes of a scalar that a handler claims first. -/
inductive ScalarOutcome (context : CompactContext) (handler : Handler) : Prop where
  | single :
      handler.composite = false →
      ScalarOutcome context handler
  | read (value : TokenValue) :
      handler.parseCompact context.value = .ok (some value) →
      ScalarOutcome context handler
  | unread :
      context.ExpectsComposite →
      handler.parseCompact context.value = .ok none →
      ScalarOutcome context handler

/-- The cases are the handlers in the order in which they are asked. -/
theorem ScalarText.outcome
    {context : CompactContext}
    {handler : Handler}
    (scalar : ScalarText context.value)
    (isTrimmed : context.value.toList = context.stripped)
    (isFirst : context.IsFirst handler Handler.builtins) :
    ScalarOutcome context handler := by
  rcases isFirst.cases_cons with ⟨_, rfl⟩ | ⟨noColor, isFirst⟩
  · exact .single rfl
  have plain : PlainScalar context.stripped := by
    simp only [Handler.color] at noColor
    exact scalar.plain noColor
  have isFirst := isFirst.rest_of_declined plain.typography_declines
  have isFirst := isFirst.rest_of_declined plain.gradient_declines
  rcases isFirst.cases_cons with ⟨claimed, rfl⟩ | ⟨noShadow, isFirst⟩
  · obtain ⟨isHinted, notNumber⟩ :=
      plain.detectsShadow_iff.mp (Except.ok.inj claimed)
    simp only [Handler.color] at noColor
    exact .unread (.shadow noColor isHinted notNumber) plain.shadow_unread
  rcases isFirst.cases_cons with ⟨_, rfl⟩ | ⟨noDimension, isFirst⟩
  · exact .single rfl
  have notLength :=
    Handler.hasUnit_of_not_detectsDimension (Except.ok.inj noDimension)
  rcases isFirst.cases_cons with ⟨_, rfl⟩ | ⟨noWeight, isFirst⟩
  · exact .single rfl
  rcases isFirst.cases_cons with ⟨_, rfl⟩ | ⟨noFamily, isFirst⟩
  · exact .single rfl
  have isFirst := isFirst.rest_of_declined (plain.border_declines notLength)
  rcases isFirst.cases_cons with ⟨_, rfl⟩ | ⟨noDuration, isFirst⟩
  · exact .single rfl
  have notSpan : Duration.isExplicit context.stripped = false :=
    Except.ok.inj noDuration
  have isFirst := isFirst.rest_of_declined plain.cubicBezier_declines
  rcases isFirst.cases_cons with ⟨_, rfl⟩ | ⟨noTruth, isFirst⟩
  · exact .single rfl
  have isFirst :=
    isFirst.rest_of_declined (plain.transition_declines notLength notSpan)
  rcases isFirst.cases_cons with ⟨claimed, rfl⟩ | ⟨_, isFirst⟩
  · rw [plain.keyframes_detectCompact isTrimmed] at claimed
    refine .unread (.keyframes (Except.ok.inj claimed) ?_)
      (plain.keyframes_unread isTrimmed)
    simp only [Handler.scalarClaimants, List.forall_mem_cons]
    exact ⟨noColor, noShadow, noDimension, noWeight, noFamily, noDuration, noTruth,
      by simp⟩
  rcases isFirst.cases_cons with ⟨claimed, rfl⟩ | ⟨_, isFirst⟩
  · obtain ⟨value, isRead⟩ := plain.animation_reads notLength notSpan claimed
    exact .read value isRead
  rcases isFirst.cases_cons with ⟨_, rfl⟩ | ⟨_, isFirst⟩
  · exact .single rfl
  rcases isFirst.cases_cons with ⟨_, rfl⟩ | ⟨_, isFirst⟩
  · exact .single rfl
  · cases isFirst

/--
Where a composite value is expected, a scalar is claimed by a handler
that cannot read it.
-/
theorem ScalarText.exists_unread
    {context : CompactContext}
    (scalar : ScalarText context.value)
    (isTrimmed : context.value.toList = context.stripped)
    (expects : context.ExpectsComposite) :
    ∃ handler ∈ Handler.builtins,
      context.IsFirst handler Handler.builtins ∧ handler.composite = true ∧
        handler.parseCompact context.value = .ok none := by
  cases expects with
  | shadow noColor isHinted notNumber =>
      have plain := scalar.plain noColor
      have claimed := plain.detectsShadow_iff.mpr ⟨isHinted, notNumber⟩
      refine ⟨Handler.shadow, by simp [Handler.builtins], ?_, rfl,
        plain.shadow_unread⟩
      refine .later ?_
        (.later plain.typography_declines
          (.later plain.gradient_declines
            (.here ⟨congrArg Except.ok claimed, rfl⟩)))
      simp only [Handler.color]
      exact noColor
  | keyframes isHinted declined =>
      simp only [Handler.scalarClaimants, List.forall_mem_cons] at declined
      obtain ⟨noColor, noShadow, noDimension, noWeight, noFamily, noDuration,
        noTruth, _⟩ :=
        declined
      have plain : PlainScalar context.stripped := by
        simp only [Handler.color] at noColor
        exact scalar.plain noColor
      have notLength :=
        Handler.hasUnit_of_not_detectsDimension (Except.ok.inj noDimension)
      have noTransition :=
        plain.transition_declines notLength (Except.ok.inj noDuration)
      have claimed := plain.keyframes_detectCompact isTrimmed
      rw [isHinted] at claimed
      refine ⟨Handler.keyframes, by simp [Handler.builtins], ?_, rfl,
        plain.keyframes_unread isTrimmed⟩
      exact .later noColor
        (.later plain.typography_declines
          (.later plain.gradient_declines
            (.later noShadow
              (.later noDimension
                (.later noWeight
                  (.later noFamily
                    (.later (plain.border_declines notLength)
                      (.later noDuration
                        (.later plain.cubicBezier_declines
                          (.later noTruth
                            (.later noTransition (.here ⟨claimed, rfl⟩))))))))))))

/--
A font weight may stand under the path, and the value has too
many digits for one.
-/
def CompactContext.OverlongWeight (context : CompactContext) : Prop :=
  context.pathHas ["weight", "typography", "font", "text"] = true ∧
    Handler.detectsDimension context = false ∧
    (∀ c ∈ context.stripped, isDecimal c = true) ∧
    Number.maxWholeDigits < context.stripped.length

/-- No scalar is a color that overflows. -/
theorem ScalarText.not_overflows
    {text : String}
    (scalar : ScalarText text) :
    ¬ Color.Overflows text := by
  rcases scalar.plain_or_color with plain | ⟨color, isColor⟩
  · intro overflows
    exact plain.not_mem_of_mem_marks (by decide)
      (Color.parenthesis_mem_of_overflows overflows)
  · exact Color.succeeds_parse_iff.mp ⟨_, isColor⟩

/--
The type of a scalar can be told unless it has too many digits
for a font weight.
-/
theorem ScalarText.misleads_iff
    {context : CompactContext}
    (scalar : ScalarText context.value) :
    context.Misleads ↔ context.OverlongWeight := by
  have number_of_digits (digitLike : allDigitLike context.stripped = true) :
      PlainScalar context.stripped ∧ isBareNumber context.stripped = true := by
    have plain := scalar.plain (Handler.detectsColor_of_digits digitLike)
    exact ⟨plain, plain.isBareNumber_of_digits digitLike⟩
  constructor
  · rintro (overflows | ⟨isHinted, _, noDimension, noNumeral⟩)
    · exact (scalar.not_overflows overflows).elim
    · obtain ⟨_, isNumber⟩ := number_of_digits noNumeral.digitLike
      have isNumeral := numeral_of_isBareNumber isNumber
      have decimals : ∀ c ∈ context.stripped, isDecimal c = true := by
        intro c isChar
        exact Number.isDecimal_of_isDigitLike (isNumeral.isNumeralChar c isChar)
          (noNumeral.isDigitLike_of_mem isChar)
      refine ⟨isHinted, noDimension, decimals, ?_⟩
      rcases noNumeral.unreadable with otherDigits | tooLong
      · rw [List.all_eq_true.mpr decimals] at otherDigits
        cases otherDigits
      · exact tooLong
  · rintro ⟨isHinted, noDimension, decimals, tooLong⟩
    have isThere : context.stripped ≠ [] := by
      intro isEmpty
      rw [isEmpty] at tooLong
      cases tooLong
    have digitLike : allDigitLike context.stripped = true := by
      rw [allDigitLike, Bool.and_eq_true, Bool.not_eq_true',
        List.isEmpty_eq_false_iff, List.all_eq_true]
      exact ⟨isThere,
        fun c isChar => Number.isDigitLike_of_isDecimal (decimals c isChar)⟩
    obtain ⟨plain, isNumber⟩ := number_of_digits digitLike
    refine .inr ⟨isHinted, ?_, noDimension, digitLike, .inr tooLong⟩
    rw [← Bool.not_eq_true]
    intro isShadow
    cases isNumber.symm.trans (plain.detectsShadow_iff.mp isShadow).2

end DesignTokens
