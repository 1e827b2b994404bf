import DesignTokens.Proofs.Registry.ScalarDetection
import DesignTokens.Proofs.Source.CompactExport

namespace DesignTokens.CompactExport

/-!
# Scalars in compact exports

An entry whose value is a scalar is kept, with three exceptions: a font weight
is meant and the number has too many digits, a shadow is meant and the value is
no number and no claimed color, or keyframes are meant and nothing else claims
the value before.
-/

open DesignTokens.Text

/-- A text without commas is the value of the first mode. -/
theorem primaryValue_of_not_mem
    {raw : String}
    (noComma : ',' ∉ trimChars raw.toList) :
    primaryValue raw = trim raw := by
  have onePiece : splitTopLevel (trim raw) = [trim raw] := by
    rw [splitTopLevel, toList_trim, splitAtDepthZero_of_not_mem noComma,
      List.map_singleton, trimChars_trimChars, trim]
  unfold primaryValue
  simp only [onePiece]
  split <;> rfl

/--
The first character of a color function begins neither a number
nor a truth value.
-/
theorem not_isScalar_of_function
    {c lowered : Char}
    (isFirst : lowered ∈ ['r', 'h', 'o'])
    (notSigma : c ≠ 'Σ')
    (notDotted : c ≠ 'İ')
    (isForm : lowerChar c = lowered)
    (more : List Char) :
    isScalar (String.ofList (c :: more)) = false := by
  have noHash : c ≠ '#' := by
    rintro rfl
    rw [← isForm] at isFirst
    exact absurd isFirst (by decide)
  have noTruth :
      ∀ word ∈ ["true", "false"], lower (String.ofList (c :: more)) ≠ word := by
    intro word isWord isLower
    have isHead : word.toList.head? = some lowered := by
      rw [← isLower, lower, String.toList_ofList, String.toList_ofList, lowerChars,
        lowerFrom, lowerInContext, if_neg notSigma, if_neg notDotted, isForm]
      rfl
    rcases List.mem_pair.mp isWord with rfl | rfl
    · obtain rfl : 't' = lowered := Option.some.inj isHead
      exact absurd isFirst (by decide)
    · obtain rfl : 'f' = lowered := Option.some.inj isHead
      exact absurd isFirst (by decide)
  have noNumber : Dimension.isWritten (c :: more) = false := by
    rw [← Bool.not_eq_true]
    intro isWritten
    have inNumeral := Dimension.isNumeralChar_of_isWritten isWritten
    -- A character of numerals is its own lowercase form, and none of the three
    -- letters is one.
    obtain rfl : c = lowered := by
      rw [← isForm, (Number.isSettled_of_isNumeralChar inNumeral).keepsForm]
    have noNumeral : ['r', 'h', 'o'].any Number.isNumeralChar = false := by decide
    exact List.any_eq_false.mp noNumeral c isFirst inNumeral
  rw [isScalar, String.toList_ofList, noNumber, Bool.or_false, Bool.or_eq_false_iff]
  constructor
  · simp [startsWith, List.isPrefixOf, noHash.symm]
  · rw [← Bool.not_eq_true, List.contains_iff_mem]
    exact fun isWord => noTruth _ isWord rfl

/-- A color function is the value of the first mode. -/
theorem primaryValue_of_function
    {raw name : String}
    (isFunction : name ∈ Color.functions)
    (starts : startsWith name.toList (lower (trim raw)).toList = true) :
    primaryValue raw = trim raw := by
  -- The first piece begins with the first letter of the name, in either case.
  obtain ⟨lowered, isFirst, isHead⟩ : ∃ lowered ∈ ['r', 'h', 'o'],
      (lowerChars (trimChars raw.toList)).head? = some lowered := by
    rw [Color.toList_lower_trim] at starts
    obtain ⟨behind, isForm⟩ := List.isPrefixOf_iff_prefix.mp starts
    rw [← isForm]
    simp only [Color.functions, List.mem_cons, List.not_mem_nil,
      or_false] at isFunction
    rcases isFunction with rfl | rfl | rfl
    · exact ⟨'r', by decide, rfl⟩
    · exact ⟨'h', by decide, rfl⟩
    · exact ⟨'o', by decide, rfl⟩
  have noContext : lowered ∉ ['σ', 'ς', 'i'] := by
    intro isContext
    have apart : ['r', 'h', 'o'].any ['σ', 'ς', 'i'].contains = false := by
      decide
    exact List.any_eq_false.mp apart lowered isFirst
      (List.contains_iff_mem.mpr isContext)
  obtain ⟨c, rest, shape, notSigma, notDotted, isForm⟩ :=
    exists_of_head?_lowerChars isHead noContext
  have isInk : isBlank c = false :=
    (trimmed_trimChars raw.toList).front c (by rw [shape]; rfl)
  have notComma : c ≠ ',' := by
    rintro rfl
    rw [← isForm] at isFirst
    exact absurd isFirst (by decide)
  have notCut : ¬ (c = ',' ∧ (0 : Int) = 0) := fun isCut => notComma isCut.1
  obtain ⟨piece, pieces, _, isCut⟩ :=
    exists_splitAtDepthZero_cons clampedDepthAfter notCut rest
  obtain ⟨more, isPiece⟩ := exists_trimChars_cons isInk piece
  have isSplit :
      splitTopLevel (trim raw) = String.ofList (c :: more) ::
        pieces.map (fun piece => String.ofList (trimChars piece)) := by
    rw [splitTopLevel, toList_trim, shape, isCut, List.map_cons, isPiece]
  have noScalar := not_isScalar_of_function isFirst notSigma notDotted isForm more
  unfold primaryValue
  simp only [isSplit]
  split
  · rfl
  · split
    · rename_i first second others isList
      obtain ⟨rfl, _⟩ := List.cons.inj isList
      rw [List.all_cons, noScalar, Bool.and_false, Bool.false_and,
        if_neg Bool.false_ne_true]
    · rfl

/-- A scalar is the value of the first mode. -/
theorem primaryValue_of_scalar
    {raw : String}
    (scalar : ScalarText raw) :
    primaryValue raw = trim raw := by
  rcases scalar.plain_or_color with plain | ⟨color, isColor⟩
  · exact primaryValue_of_not_mem (plain.not_mem_of_mem_marks (by decide))
  · cases Color.form_of_parse isColor with
    | hex digits isForm allHex _ =>
        refine primaryValue_of_not_mem ?_
        rw [isForm, List.mem_cons, not_or]
        refine ⟨by decide, fun isComma => ?_⟩
        exact (Color.isHexDigit_cases (allHex _ isComma)).2.2.1 rfl
    | function name isFunction starts =>
        exact primaryValue_of_function isFunction starts
    | name isNamed =>
        have plain := PlainScalar.of_named isNamed
        exact primaryValue_of_not_mem (plain.not_mem_of_mem_marks (by decide))

namespace Entry

/-- The path and the value that the type of an entry is told from. -/
def context (entry : Entry) : CompactContext :=
  ⟨entry.path, primaryValue entry.raw⟩

theorem value_context
    (entry : Entry) :
    entry.context.value = primaryValue entry.raw := by
  rw [context]

theorem detectCompact_context
    (registry : Registry)
    (entry : Entry) :
    registry.detectCompact entry.context = entry.tag registry := by
  rw [tag, context]

/--
An entry has no token when its handler is one of composite values
and cannot read it.
-/
theorem token?_eq_none_of_unread
    {entry : Entry}
    {handler : Handler}
    (isBuiltin : handler ∈ Handler.builtins)
    (isFirst : entry.context.IsFirst handler Handler.builtins)
    (isComposite : handler.composite = true)
    (unread : handler.parseCompact entry.context.value = .ok none) :
    entry.token? Registry.standard = .ok none := by
  have isTag := (CompactContext.isFirst_iff isBuiltin).mp isFirst
  rw [detectCompact_context] at isTag
  rw [value_context] at unread
  unfold token?
  simp only [isTag, lift_ok, ok_bind, Registry.get_standard isBuiltin, unread,
    isComposite, if_true]
  rfl

/--
An entry has a token when its handler reads the value, or is one
of single values.
-/
theorem exists_token?_of_read
    {entry : Entry}
    {handler : Handler}
    (isBuiltin : handler ∈ Handler.builtins)
    (isFirst : entry.context.IsFirst handler Handler.builtins)
    {read? : Option TokenValue}
    (isRead : handler.parseCompact entry.context.value = .ok read?)
    (isKept : handler.composite = true → read? ≠ none) :
    ∃ token, entry.token? Registry.standard = .ok (some token) := by
  have isTag := (CompactContext.isFirst_iff isBuiltin).mp isFirst
  rw [detectCompact_context] at isTag
  rw [value_context] at isRead
  unfold token?
  simp only [isTag, lift_ok, ok_bind, Registry.get_standard isBuiltin, isRead]
  cases read? with
  | some value => exact ⟨_, rfl⟩
  | none => exact ⟨_, if_neg (fun isComposite => isKept isComposite rfl)⟩

/-- The value of a scalar entry is trimmed, and a scalar. -/
theorem scalar_context
    {entry : Entry}
    (scalar : ScalarText entry.raw) :
    ScalarText entry.context.value ∧
      entry.context.value.toList = entry.context.stripped := by
  rw [CompactContext.stripped, value_context, primaryValue_of_scalar scalar,
    toList_trim, trimChars_trimChars]
  exact ⟨scalar.trim, rfl⟩

/-- A scalar has no token where a composite value is expected. -/
theorem token?_eq_none_of_expectsComposite
    {entry : Entry}
    (scalar : ScalarText entry.raw)
    (expects : entry.context.ExpectsComposite) :
    entry.token? Registry.standard = .ok none := by
  obtain ⟨scalarValue, isTrimmed⟩ := scalar_context scalar
  obtain ⟨handler, isBuiltin, isFirst, isComposite, unread⟩ :=
    scalarValue.exists_unread isTrimmed expects
  exact token?_eq_none_of_unread isBuiltin isFirst isComposite unread

/--
An entry whose value is a scalar is kept as a token, unless it has too many digits
for a font weight or a composite value is expected under its path.
-/
theorem exists_token?_iff_of_scalar
    {entry : Entry}
    (scalar : ScalarText entry.raw) :
    (∃ token, entry.token? Registry.standard = .ok (some token)) ↔
      ¬ entry.context.OverlongWeight ∧ ¬ entry.context.ExpectsComposite := by
  obtain ⟨scalarValue, isTrimmed⟩ := scalar_context scalar
  constructor
  · rintro ⟨token, isToken⟩
    constructor
    · rw [← scalarValue.misleads_iff]
      exact fun misleads => succeeds_token?_iff.mp ⟨_, isToken⟩ (.inl misleads)
    · intro expects
      cases isToken.symm.trans (token?_eq_none_of_expectsComposite scalar expects)
  · rintro ⟨notOverlong, expectsNone⟩
    rw [← scalarValue.misleads_iff] at notOverlong
    obtain ⟨tag, isTag⟩ := Registry.succeeds_detectCompact_iff.mpr notOverlong
    obtain ⟨handler, isBuiltin, rfl, claimed⟩ :=
      Registry.exists_of_detectCompact isTag
    have isFirst := (CompactContext.isFirst_iff isBuiltin).mpr isTag
    cases scalarValue.outcome isTrimmed isFirst with
    | single isSingle =>
        obtain ⟨read?, isRead⟩ :=
          Handler.succeeds_parseCompact_of_single isBuiltin claimed isSingle
        refine exists_token?_of_read isBuiltin isFirst isRead
          (fun isComposite => ?_)
        cases isComposite.symm.trans isSingle
    | read value isRead =>
        exact exists_token?_of_read isBuiltin isFirst isRead
          (fun _ => Option.some_ne_none _)
    | unread expects _ => exact (expectsNone expects).elim

/-- A length under a path for lengths is kept. -/
theorem exists_token?_of_spacing :
    ScalarText "4px" ∧
      ∃ token, (⟨"spacing/sm", "4px"⟩ : Entry).token? Registry.standard =
        .ok (some token) := by
  have isLength : ScalarText "4px" := .length (by decide +kernel)
  refine ⟨isLength, (exists_token?_iff_of_scalar isLength).mpr ⟨?_, ?_⟩⟩
  · rintro ⟨_, _, _, tooLong⟩
    exact absurd tooLong (by decide +kernel)
  · rintro (⟨_, isHinted, _⟩ | ⟨isHinted, _⟩)
    · exact absurd isHinted (by decide +kernel)
    · exact absurd isHinted (by decide +kernel)

/--
A length, a time span, a truth value and the name of a color under the path of a
shadow have no token, and neither has a number under the path of keyframes.
-/
theorem scalars_without_token :
    (ScalarText "4px" ∧
        (⟨"shadow/blur", "4px"⟩ : Entry).token? Registry.standard = .ok none) ∧
      (ScalarText "200ms" ∧
        (⟨"elevation/delay", "200ms"⟩ : Entry).token? Registry.standard =
          .ok none) ∧
      (ScalarText "true" ∧
        (⟨"shadow/inset", "true"⟩ : Entry).token? Registry.standard = .ok none) ∧
      (ScalarText "red" ∧
        (⟨"font/shadow", "red"⟩ : Entry).token? Registry.standard = .ok none) ∧
      (ScalarText "0.5" ∧
        (⟨"keyframe/opacity", "0.5"⟩ : Entry).token? Registry.standard =
          .ok none) := by
  have length : ScalarText "4px" := .length (by decide +kernel)
  have span : ScalarText "200ms" := .duration (by decide +kernel)
  have truth : ScalarText "true" := .truth (by decide +kernel)
  have name : ScalarText "red" := .color _ rfl
  have number : ScalarText "0.5" := .number (by decide +kernel)
  refine ⟨⟨length, token?_eq_none_of_expectsComposite length ?_⟩,
    ⟨span, token?_eq_none_of_expectsComposite span ?_⟩,
    ⟨truth, token?_eq_none_of_expectsComposite truth ?_⟩,
    ⟨name, token?_eq_none_of_expectsComposite name ?_⟩,
    ⟨number, token?_eq_none_of_expectsComposite number ?_⟩⟩
  · exact .shadow rfl (by decide +kernel) (by decide +kernel)
  · exact .shadow rfl (by decide +kernel) (by decide +kernel)
  · exact .shadow rfl (by decide +kernel) (by decide +kernel)
  · exact .shadow rfl (by decide +kernel) (by decide +kernel)
  · refine .keyframes (by decide +kernel) ?_
    simp only [Handler.scalarClaimants, List.forall_mem_cons]
    exact ⟨rfl, rfl, rfl, rfl, rfl, rfl, rfl, by simp⟩

end Entry

end DesignTokens.CompactExport
