import DesignTokens.Proofs.Value.AnimationTexts
import DesignTokens.Proofs.Value.Vocabularies
import DesignTokens.Registry.Composite

namespace DesignTokens.Animation

/-!
# Animations that are written and read again

An animation is written with its name in front and the other parts in a fixed
order.  Every part but the name stands behind the name, and none of them is taken
for it.  The name itself fills another slot when it holds a curve, or when it is an
easing keyword and the easing has not been found by then.
-/

open DesignTokens.Text

/-! The written form. -/

/-- The texts of a part that an animation can leave out. -/
inductive IsOptionText {α : Type} (text : α → Except Fault String) :
    Option α → List (List Char) → Prop where
  | none :
      IsOptionText text none []
  | some
      {part : α}
      {chars : List Char} :
      text part = .ok (String.ofList chars) →
      IsOptionText text (some part) [chars]

theorem mapM_wordOf_present
    {values : List Wire}
    (areChoices : ∀ value ∈ values, ∃ listed, IsChoice listed value) :
    (present values).mapM wordOf = .ok ((slotTexts values).map String.ofList) := by
  induction values with
  | nil => rfl
  | cons value rest inductionHypothesis =>
      obtain ⟨⟨listed, isChoice⟩, areLater⟩ := List.forall_mem_cons.mp areChoices
      rcases isChoice with rfl | ⟨word, _, rfl⟩
      · exact inductionHypothesis areLater
      · have isFirst : present (.str word :: rest) = .str word :: present rest :=
          rfl
        rw [isFirst, List.mapM_cons, inductionHypothesis areLater]
        simp [wordOf, slotTexts, isFirst, Wire.display]

theorem joinWith_spaced
    (name : String)
    (texts : List (List Char)) :
    joinWith " " (name :: texts.map String.ofList) =
      String.ofList (name.toList ++ spaced texts) := by
  have isBlank : " ".toList = [' '] := by decide
  have isSpaced :
      (texts.map String.ofList).flatMap (fun text => [' '] ++ text.toList) =
        spaced texts := by
    simp [spaced, List.flatMap_map]
  refine String.toList_inj.mp ?_
  rw [toList_joinWith_cons, isBlank, isSpaced,
    String.toList_ofList (l := name.toList ++ spaced texts)]

/-- What is written behind the easing of an animation. -/
def behindEasing (animation : Animation) (delay : List (List Char)) :
    List (List Char) :=
  delay ++ (slotTexts [animation.iterationCount] ++
    slotTexts [animation.direction, animation.fillMode, animation.playState])

/--
An animation is written as its name with the texts of the other parts behind it.
-/
theorem text_eq
    {animation : Animation}
    (readable : animation.IsReadable)
    {name : String}
    (isName : animation.name = .str name)
    {span : List Char}
    (isSpan : animation.duration.text = .ok (String.ofList span))
    {easing delay : List (List Char)}
    (isEasing : IsOptionText Timing.text animation.timing? easing)
    (isDelay : IsOptionText Duration.text animation.delay? delay) :
    animation.text = .ok (String.ofList
      (name.toList ++
        spaced (span :: (easing ++ animation.behindEasing delay)))) := by
  have areChoices :
      ∀ value ∈ [animation.direction, animation.fillMode, animation.playState],
        ∃ listed, IsChoice listed value :=
    List.forall_mem_cons.mpr ⟨⟨_, readable.direction⟩, List.forall_mem_cons.mpr
      ⟨⟨_, readable.fillMode⟩,
        List.forall_mem_singleton.mpr ⟨_, readable.playState⟩⟩⟩
  have areCounts : (present [animation.iterationCount]).map Wire.display =
      (slotTexts [animation.iterationCount]).map String.ofList := by
    simp [slotTexts]
  rw [← joinWith_spaced]
  unfold text behindEasing
  generalize animation.timing? = timing?,
    animation.delay? = delay? at isEasing isDelay
  cases isEasing with
  | none =>
      cases isDelay with
      | none =>
          simp [isSpan, isName, wordOf, mapM_wordOf_present areChoices, areCounts]
      | some isDelayText =>
          simp [isSpan, isName, wordOf, mapM_wordOf_present areChoices, areCounts,
            isDelayText, Except.map]
  | some isEasingText =>
      cases isDelay with
      | none =>
          simp [isSpan, isName, wordOf, mapM_wordOf_present areChoices, areCounts,
            isEasingText, Except.map]
      | some isDelayText =>
          simp [isSpan, isName, wordOf, mapM_wordOf_present areChoices, areCounts,
            isEasingText, isDelayText, Except.map]

/-! The curve of a written animation. -/

section Searching

open CubicBezier (IsPart Parts Blocks isCoordinate find? marks)

theorem words_of_part
    {chars : List Char}
    (isPart : IsPart chars) :
    words chars = [chars] :=
  words_of_not_blank isPart.isThere isPart.ink

theorem flatMap_words
    {texts : List (List Char)}
    (areParts : ∀ chars ∈ texts, IsPart chars) :
    texts.flatMap words = texts := by
  rw [List.flatMap_congr fun chars isListed =>
    words_of_part (areParts chars isListed), List.flatMap_singleton']

/--
A name in front of parts is the first word, and each part is a word behind it.
-/
theorem words_in_order
    {name : List Char}
    (isThere : name ≠ [])
    (ink : ∀ c ∈ name, isBlank c = false)
    {texts : List (List Char)}
    (areParts : ∀ chars ∈ texts, IsPart chars) :
    words (name ++ spaced texts) = name :: texts := by
  rw [words_append_spaced, words_of_not_blank isThere ink, flatMap_words areParts,
    List.singleton_append]

theorem opening_not_mem_spaced
    {texts : List (List Char)}
    (areParts : ∀ chars ∈ texts, IsPart chars) :
    '(' ∉ spaced texts := by
  intro isOpening
  rcases mem_of_mem_spaced isOpening with isSpace | ⟨chars, isListed, isChar⟩
  · exact absurd isSpace (by decide)
  · exact (areParts chars isListed).noMark '(' isChar (by decide)

theorem takeWhile_spaced
    (texts : List (List Char)) :
    (spaced texts).takeWhile CubicBezier.isCoordinateChar = [] := by
  cases texts with
  | nil => rfl
  | cons chars rest =>
      rw [spaced_cons, List.takeWhile_cons_of_neg (by decide)]

theorem endsInInk_written
    (parts : Parts) :
    EndsInInk (parts.written []) := by
  have isEnd : EndsInInk [')'] := ⟨')', rfl, by decide⟩
  have isInside : EndsInInk (parts.inside []) :=
    ((((((isEnd.append parts.y2).append [',', ' ']).append parts.x2).append
      [',', ' ']).append parts.y1).append [',', ' ']).append parts.x1
  exact isInside.append _

variable {name span : List Char} {texts : List (List Char)}
  (isThere : name ≠ []) (ink : ∀ c ∈ name, isBlank c = false)
  (isSpan : IsSpanText span)
include isThere ink isSpan

/-- Where a curve is taken out, the other texts are words. -/
theorem words_without_curve
    (areParts : ∀ chars ∈ texts, IsPart chars) :
    words (trimChars (name ++ spaced [span] ++ ' ' :: ' ' :: spaced texts)) =
      name :: span :: texts := by
  have isFront :=
    words_in_order isThere ink (List.forall_mem_singleton.mpr isSpan.isPart)
  have isBehind : words (spaced texts) = texts := by
    have isEmpty := words_append_spaced [] texts
    rwa [flatMap_words areParts] at isEmpty
  rw [words_trimChars, words_append_blank isBlank_space,
    words_blank_cons isBlank_space, isFront, isBehind]
  rfl

/-- Where a curve stays, it is four words. -/
theorem words_with_curve
    {parts : Parts}
    (areCurve : ∀ chars ∈ parts.texts, IsPart chars)
    (areParts : ∀ chars ∈ texts, IsPart chars) :
    words (name ++ spaced (span :: parts.written [] :: texts)) =
      name :: span :: (curveWords parts ++ texts) := by
  rw [words_append_spaced, List.flatMap_cons, List.flatMap_cons,
    words_written areCurve, words_of_not_blank isThere ink,
    words_of_part isSpan.isPart, flatMap_words areParts]
  rfl

variable (noCurve : find? name = none)
include noCurve

/-- Without an easing curve nothing is taken out of a written animation. -/
theorem takeCurve_of_parts
    (areParts : ∀ chars ∈ texts, IsPart chars) :
    takeCurve (trimChars (name ++ spaced (span :: texts))) =
      ⟨none, name ++ spaced (span :: texts)⟩ := by
  have allParts : ∀ chars ∈ span :: texts, IsPart chars :=
    List.forall_mem_cons.mpr ⟨isSpan.isPart, areParts⟩
  have trimmed : Trimmed (name ++ spaced (span :: texts)) :=
    trimmed_append_spaced isThere ink fun chars isListed =>
      endsInInk_of_ink (allParts chars isListed).isThere
        (allParts chars isListed).ink
  have blocks : Blocks (spaced (span :: texts)) := by
    rw [spaced_cons]
    exact CubicBezier.blocks_of_part isSpan.isPart isSpan.notCoordinate
      (takeWhile_spaced texts)
  rw [trimmed.trimChars_eq, takeCurve, blocks.find?_append ink noCurve,
    CubicBezier.find?_eq_none_of_not_mem (opening_not_mem_spaced allParts)]
  rfl

/--
The easing curve is taken out of a written animation, if its parts
are coordinates.
-/
theorem takeCurve_of_curve
    {parts : Parts}
    (areCurve : ∀ chars ∈ parts.texts, IsPart chars)
    (areParts : ∀ chars ∈ texts, IsPart chars) :
    takeCurve (trimChars (name ++ spaced (span :: parts.written [] :: texts))) =
      if parts.texts.all isCoordinate then
        ⟨CubicBezier.ofCoordinates? parts.texts,
          trimChars (name ++ spaced [span] ++ ' ' :: ' ' :: spaced texts)⟩
      else ⟨none, name ++ spaced (span :: parts.written [] :: texts)⟩ := by
  have curveEnds := endsInInk_written parts
  have trimmed : Trimmed (name ++ spaced (span :: parts.written [] :: texts)) :=
    trimmed_append_spaced isThere ink (List.forall_mem_cons.mpr
      ⟨endsInInk_of_ink isSpan.isPart.isThere isSpan.isPart.ink,
        List.forall_mem_cons.mpr ⟨curveEnds, fun chars isListed =>
          endsInInk_of_ink (areParts chars isListed).isThere
            (areParts chars isListed).ink⟩⟩)
  have blocks : Blocks (spaced (span :: parts.written [] :: texts)) := by
    rw [spaced_cons]
    exact CubicBezier.blocks_of_part isSpan.isPart isSpan.notCoordinate
      (takeWhile_spaced _)
  have isForm : spaced (span :: parts.written [] :: texts) =
      ' ' :: span ++ [' '] ++ parts.written (spaced texts) := by
    rw [spaced_cons, spaced_cons, parts.written_append]
    simp
  have noLetter : 'c' ∉ ' ' :: span ++ [' '] := by
    simp [isSpan.noLetter]
  have isFound : find? (spaced (span :: parts.written [] :: texts)) =
      if parts.texts.all isCoordinate then
        some (' ' :: span ++ [' '], parts.texts, spaced texts) else none := by
    rw [isForm, CubicBezier.find?_append_of_not_mem noLetter,
      CubicBezier.Parts.find?_written areCurve (opening_not_mem_spaced areParts)]
    split
    · simp
    · rfl
  rw [trimmed.trimChars_eq, takeCurve, blocks.find?_append ink noCurve, isFound]
  cases parts.texts.all isCoordinate with
  | true => simp
  | false => rfl

end Searching

/-! Words of a written animation. -/

/-- Nothing is found yet but possibly an easing. -/
def Found.start (timing? : Option Timing) : Found :=
  ⟨"", [], timing?, .null, .null, .null, .null⟩

/-- Words that lead to a name make up an animation of what they lead to. -/
theorem exists_of_leads
    {text : String}
    {taken : WithoutCurve}
    (isTaken : takeCurve (trimChars text.toList) = taken)
    {target : Found}
    (leads :
      Leads (Found.start (taken.curve?.map Timing.curve)) (words taken.rest) target)
    (hasName : target.name ≠ "") :
    ∃ again, parse text = .ok (some again) ∧ again.name = .str target.name ∧
      again.timing? = target.timing? ∧
      again.iterationCount = target.iterationCount ∧
      again.direction = target.direction ∧ again.fillMode = target.fillMode ∧
      again.playState = target.playState := by
  obtain ⟨longer, areTaken⟩ := leads []
  have isFound : (words taken.rest).foldlM Found.addWord
      ⟨"", [], taken.curve?.map Timing.curve, .null, .null, .null, .null⟩ =
        .ok (target.withSpans longer) := areTaken
  have notEmpty : ¬ (target.withSpans longer).name = "" := hasName
  unfold parse
  simp only [isTaken, isFound, ok_bind, if_neg notEmpty]
  exact ⟨_, rfl, rfl, rfl, rfl, rfl, rfl, rfl⟩

theorem leads_spanText
    {found : Found}
    {span : List Char}
    (isSpan : IsSpanText span)
    (hasName : found.name ≠ "") :
    Leads found [span] found := by
  rcases isSpan.slot with explicit | ⟨fits, noKeyword⟩
  · exact leads_span explicit
  · exact leads_ignored fits noKeyword hasName

/-- Words that fill no slot are left out once there is a name. -/
theorem leads_idle
    {found : Found}
    {texts : List (List Char)}
    (areIdle : ∀ chars ∈ texts, IsIdle chars)
    (hasName : found.name ≠ "") :
    Leads found texts found := by
  induction texts with
  | nil => exact leads_nil found
  | cons chars rest inductionHypothesis =>
      obtain ⟨⟨fits, noKeyword⟩, areLater⟩ := List.forall_mem_cons.mp areIdle
      exact (leads_ignored fits noKeyword hasName).append
        (inductionHypothesis areLater)

section Behind

variable {animation : Animation} (readable : animation.IsReadable)
  {delay : List (List Char)}
  (areDelays : ∀ chars ∈ delay, IsSpanText chars)
include readable areDelays

theorem leads_behindEasing
    {name : String}
    (hasName : name ≠ "")
    (timing? : Option Timing) :
    Leads { Found.start timing? with name := name } (animation.behindEasing delay)
      ⟨name, [], timing?, animation.iterationCount, animation.direction,
        animation.fillMode, animation.playState⟩ := by
  have isDelay : ∀ found : Found, found.name ≠ "" → Leads found delay found := by
    intro found hasName
    induction delay with
    | nil => exact leads_nil found
    | cons chars rest inductionHypothesis =>
        obtain ⟨isSpan, areLater⟩ := List.forall_mem_cons.mp areDelays
        exact (leads_spanText isSpan hasName).append (inductionHypothesis areLater)
  rw [behindEasing, slotTexts_cons animation.direction,
    slotTexts_cons animation.fillMode]
  refine (isDelay _ hasName).append ((leads_count readable.count rfl).append ?_)
  exact (leads_direction readable.direction rfl).append
    ((leads_fillMode readable.fillMode rfl).append
      (leads_playState readable.playState rfl))

theorem isPart_of_mem_behindEasing :
    ∀ chars ∈ animation.behindEasing delay, CubicBezier.IsPart chars := by
  have ofChoice {listed : List String} (inVocabulary : listed ⊆ vocabulary)
      {value : Wire} (isChoice : IsChoice listed value) :
          ∀ chars ∈ slotTexts [value], CubicBezier.IsPart chars := by
    rcases isChoice with rfl | ⟨word, isListed, rfl⟩
    · exact List.forall_mem_nil _
    · exact List.forall_mem_singleton.mpr
        (isPart_of_mem_vocabulary (inVocabulary isListed))
  have ofCount :
      ∀ chars ∈ slotTexts [animation.iterationCount], CubicBezier.IsPart chars := by
    rcases readable.count with isNull | isInfinite | ⟨count, isNumber, _⟩
    · rw [isNull]
      exact List.forall_mem_nil _
    · rw [isInfinite]
      exact List.forall_mem_singleton.mpr (isPart_of_mem_vocabulary (by decide))
    · have isText : slotTexts [.int (Int.ofNat count)] =
          [Number.Decimal.digits count] :=
        congrArg (fun text => [text]) (toList_display_count count)
      rw [isNumber, isText]
      exact List.forall_mem_singleton.mpr (isPart_digits count)
  rw [behindEasing, slotTexts_cons animation.direction,
    slotTexts_cons animation.fillMode]
  simp only [List.forall_mem_append]
  exact ⟨fun chars isListed => (areDelays chars isListed).isPart, ofCount,
    ofChoice (by decide) readable.direction, ofChoice (by decide) readable.fillMode,
    ofChoice (by decide) readable.playState⟩

end Behind

/-! Animations that are read again. -/

/--
A name that is taken for an easing is found again: it is the easing behind it
too, and the time span between them is read as one, or the easing is a curve
that is read as one.
-/
def IsFoundBehind (duration : Duration) (name : String) : Option Timing → Prop
  | none => False
  | some (.keyword keyword) =>
      keyword = name ∧
        ∀ number ∈ doubles [duration.value], Number.IsPlainInSix number
  | some (.curve curve) =>
      ∀ number ∈ doubles curve.points, Number.IsPlainInSix number

instance (duration : Duration) (name : String) :
    DecidablePred (IsFoundBehind duration name)
  | none => inferInstanceAs (Decidable False)
  | some (.keyword keyword) => inferInstanceAs (Decidable (keyword = name ∧
      ∀ number ∈ doubles [duration.value], Number.IsPlainInSix number))
  | some (.curve curve) =>
      inferInstanceAs
        (Decidable (∀ number ∈ doubles curve.points, Number.IsPlainInSix number))

/--
The name of an animation holds no curve, and is found again if it is
an easing keyword.
-/
structure KeepsName (animation : Animation) (name : String) : Prop where
  noCurve : CubicBezier.find? name.toList = none
  easing : name ∈ Timing.keywords →
    IsFoundBehind animation.duration name animation.timing?

instance (animation : Animation) (name : String) :
    Decidable (animation.KeepsName name) :=
  decidable_of_iff
    (CubicBezier.find? name.toList = none ∧
      (name ∈ Timing.keywords →
        IsFoundBehind animation.duration name animation.timing?))
    ⟨fun parts => ⟨parts.1, parts.2⟩, fun keeps => ⟨keeps.noCurve, keeps.easing⟩⟩

/--
An animation with the same parts as another, time spans and easing curves aside.
-/
structure SameParts (again animation : Animation) : Prop where
  name : again.name = animation.name
  iterationCount : again.iterationCount = animation.iterationCount
  direction : again.direction = animation.direction
  fillMode : again.fillMode = animation.fillMode
  playState : again.playState = animation.playState
  keyword : ∀ keyword, animation.timing? = some (.keyword keyword) →
    again.timing? = some (.keyword keyword)

/-- What has been found when all words of a written animation are read. -/
def foundAgain (animation : Animation) (name : String) (timing? : Option Timing) :
    Found :=
  ⟨name, [], timing?, animation.iterationCount, animation.direction,
    animation.fillMode, animation.playState⟩

/-- An animation comes back when its words lead to its parts. -/
theorem exists_sameParts
    {animation : Animation}
    {name : String}
    (isSame : animation.name = .str name)
    {chars : List Char}
    {taken : WithoutCurve}
    (isTaken : takeCurve (trimChars chars) = taken)
    (timing? : Option Timing)
    (leads : Leads (Found.start (taken.curve?.map Timing.curve)) (words taken.rest)
      (animation.foundAgain name timing?))
    (hasName : name ≠ "")
    (isKept : ∀ keyword, animation.timing? = some (.keyword keyword) →
      timing? = some (.keyword keyword)) :
    ∃ again, parse (String.ofList chars) = .ok (some again) ∧
      SameParts again animation := by
  rw [← String.toList_ofList (l := chars)] at isTaken
  obtain ⟨again, isRead, isAgain, isEasing, isCount, isDirection, isFillMode,
    isPlayState⟩ :=
    exists_of_leads isTaken leads hasName
  refine ⟨again, isRead,
    ⟨isAgain.trans isSame.symm, isCount, isDirection, isFillMode, isPlayState,
      fun keyword isKeyword => ?_⟩⟩
  rw [isEasing]
  exact isKept keyword isKeyword

theorem ne_empty_of_isName
    {timing? : Option Timing}
    {name : String}
    (isName : IsName timing? name) :
    name ≠ "" := by
  rintro rfl
  exact isName.isThere rfl

section Again

variable {animation : Animation} (readable : animation.IsReadable)
  {name : String} (isSame : animation.name = .str name)
  (isName : IsName animation.timing? name)
  {span : List Char} (isSpan : IsSpanText span)
  {delay : List (List Char)} (areDelays : ∀ chars ∈ delay, IsSpanText chars)

include readable isName isSpan areDelays in
/-- A name in front is found, unless it is taken for an easing. -/
theorem leads_foundAgain
    {timing? easing? : Option Timing}
    (isFree : name ∈ Timing.keywords → timing?.isSome = true)
    (between : List (List Char))
    (leads : Leads { Found.start timing? with name := name } between
      { Found.start easing? with name := name }) :
    Leads (Found.start timing?)
      (name.toList :: span :: (between ++ animation.behindEasing delay))
      (animation.foundAgain name easing?) := by
  have hasName := ne_empty_of_isName isName
  have isFirst :
      Leads (Found.start timing?) [name.toList]
        { Found.start timing? with name := name } := by
    have isFound : Leads (Found.start timing?) [name.toList]
        { Found.start timing? with name := String.ofList name.toList } :=
      leads_name isName.fits (by rwa [String.ofList_toList]) rfl
    rwa [String.ofList_toList] at isFound
  exact isFirst.append ((leads_spanText isSpan hasName).append
    (leads.append (leads_behindEasing readable areDelays hasName easing?)))

include readable in
theorem isExplicit_of_readable
    (isText : animation.duration.text = .ok (String.ofList span))
    (isPlain : ∀ number ∈ doubles [animation.duration.value],
      Number.IsPlainInSix number) :
    Duration.isExplicit span = true := by
  obtain ⟨value, unit, isForm, isListed, notNegative⟩ := readable.duration
  rw [isForm] at isText isPlain
  exact isExplicit_of_plain isListed notNegative
    (isPlain value List.mem_cons_self) isText

include readable isSame isName isSpan areDelays

/-- An animation without an easing comes back. -/
theorem comes_back_without_easing
    (noCurve : CubicBezier.find? name.toList = none)
    (noEasing : animation.timing? = none) :
    ∃ again,
      parse
        (String.ofList
          (name.toList ++ spaced (span :: animation.behindEasing delay))) =
      .ok (some again) ∧ SameParts again animation := by
  have areParts := isPart_of_mem_behindEasing readable areDelays
  have notKeyword : name ∈ Timing.keywords →
      (none : Option Timing).isSome = true := by
    rw [← noEasing]
    exact isName.hasEasing
  refine exists_sameParts isSame
    (takeCurve_of_parts isName.isThere isName.ink isSpan noCurve areParts)
    none ?_ (ne_empty_of_isName isName) ?_
  · rw [words_in_order isName.isThere isName.ink
      (List.forall_mem_cons.mpr ⟨isSpan.isPart, areParts⟩)]
    exact leads_foundAgain readable isName isSpan areDelays notKeyword []
      (leads_nil _)
  · intro keyword isKeyword
    cases noEasing.symm.trans isKeyword

/--
An animation with an easing keyword comes back, unless its name is another one.
-/
theorem comes_back_with_keyword
    (isText : animation.duration.text = .ok (String.ofList span))
    (keeps : animation.KeepsName name)
    {keyword : String}
    (isListed : keyword ∈ Timing.keywords)
    (isEasing : animation.timing? = some (.keyword keyword)) :
    ∃ again, parse (String.ofList (name.toList ++
        spaced (span :: keyword.toList :: animation.behindEasing delay))) =
          .ok (some again) ∧
      SameParts again animation := by
  have hasName := ne_empty_of_isName isName
  have areParts : ∀ chars ∈ keyword.toList :: animation.behindEasing delay,
      CubicBezier.IsPart chars :=
    List.forall_mem_cons.mpr
      ⟨isPart_of_mem_vocabulary (List.mem_append_right _ isListed),
      isPart_of_mem_behindEasing readable areDelays⟩
  refine exists_sameParts isSame
    (takeCurve_of_parts isName.isThere isName.ink isSpan keeps.noCurve areParts)
    (some (.keyword keyword)) ?_ hasName ?_
  · rw [words_in_order isName.isThere isName.ink
      (List.forall_mem_cons.mpr ⟨isSpan.isPart, areParts⟩)]
    by_cases isKeyword : name ∈ Timing.keywords
    · -- The name is taken for the easing, so the easing behind it is taken for the
      -- name.
      have isFound := keeps.easing isKeyword
      rw [isEasing] at isFound
      obtain ⟨rfl, isPlain⟩ := isFound
      have explicit := isExplicit_of_readable readable isText isPlain
      exact (leads_keyword isListed rfl).append
        ((leads_span explicit).append
          ((leads_keyword_as_name isListed rfl rfl).append
            (leads_behindEasing readable areDelays hasName
              (some (.keyword keyword)))))
    · exact leads_foundAgain readable isName isSpan areDelays
        (fun isListed => (isKeyword isListed).elim)
        [keyword.toList] (leads_keyword isListed rfl)
  · intro other isOther
    rw [← isOther, isEasing]

/--
An animation comes back with parts of a curve, which are found again if the name
needs an easing.
-/
theorem comes_back_with_parts
    (noCurve : CubicBezier.find? name.toList = none)
    (noKeyword : ∀ keyword, animation.timing? ≠ some (.keyword keyword))
    {parts : CubicBezier.Parts}
    (areCurve : ∀ chars ∈ parts.texts, CubicBezier.IsPart chars)
    (isFound : name ∈ Timing.keywords →
      parts.texts.all CubicBezier.isCoordinate = true ∧
        (CubicBezier.ofCoordinates? parts.texts).isSome = true) :
    ∃ again,
      parse
        (String.ofList
          (name.toList ++
            spaced (span :: parts.written [] :: animation.behindEasing delay))) =
          .ok (some again) ∧
        SameParts again animation := by
  have hasName := ne_empty_of_isName isName
  have areParts := isPart_of_mem_behindEasing readable areDelays
  have isTaken :=
    takeCurve_of_curve isName.isThere isName.ink isSpan noCurve areCurve areParts
  cases areCoordinates : parts.texts.all CubicBezier.isCoordinate with
  | true =>
      rw [areCoordinates, if_pos rfl] at isTaken
      have isThere : name ∈ Timing.keywords →
          ((CubicBezier.ofCoordinates? parts.texts).map Timing.curve).isSome =
            true := by
        rw [Option.isSome_map]
        exact fun isListed => (isFound isListed).2
      generalize CubicBezier.ofCoordinates? parts.texts = curve? at isTaken isThere
      refine exists_sameParts isSame isTaken (curve?.map Timing.curve) ?_ hasName
        fun keyword isKeyword => (noKeyword keyword isKeyword).elim
      rw [words_without_curve isName.isThere isName.ink isSpan areParts]
      exact leads_foundAgain readable isName isSpan areDelays isThere []
        (leads_nil _)
  | false =>
      have notKeyword : name ∉ Timing.keywords := by
        intro isListed
        cases areCoordinates.symm.trans (isFound isListed).1
      rw [areCoordinates, if_neg Bool.false_ne_true] at isTaken
      refine exists_sameParts isSame isTaken none ?_ hasName
        fun keyword isKeyword => (noKeyword keyword isKeyword).elim
      rw [words_with_curve isName.isThere isName.ink isSpan areCurve areParts]
      exact leads_foundAgain readable isName isSpan areDelays
        (fun isListed => (notKeyword isListed).elim)
        (curveWords parts) (leads_idle (fun _ => isIdle_of_mem_curveWords) hasName)

/-- An animation with a curve comes back, whether or not the curve does. -/
theorem comes_back_with_curve
    (keeps : animation.KeepsName name)
    {curve : CubicBezier}
    (isEasing : animation.timing? = some (.curve curve)) :
    ∃ parts : CubicBezier.Parts,
      curve.text = .ok (String.ofList (parts.written [])) ∧
      ∃ again, parse (String.ofList (name.toList ++
          spaced (span :: parts.written [] :: animation.behindEasing delay))) =
            .ok (some again) ∧
        SameParts again animation := by
  have noKeyword : ∀ keyword, animation.timing? ≠ some (.keyword keyword) := by
    intro keyword isKeyword
    cases isEasing.symm.trans isKeyword
  obtain ⟨x1, y1, x2, y2, rfl⟩ :
      ∃ x1 y1 x2 y2, curve = ⟨.float x1, .float y1, .float x2, .float y2⟩ := by
    rcases readable.easing _ isEasing with
      ⟨_, _, isKeyword⟩ | ⟨x1, y1, x2, y2, isCurve⟩
    · cases isKeyword
    · exact ⟨x1, y1, x2, y2, Timing.curve.inj isCurve⟩
  by_cases isListed : name ∈ Timing.keywords
  · have arePlain := keeps.easing isListed
    rw [isEasing] at arePlain
    obtain ⟨coordinates, isText, _⟩ := CubicBezier.exists_text arePlain
    refine ⟨coordinates.parts, isText,
      comes_back_with_parts readable isSame isName isSpan areDelays keeps.noCurve
        noKeyword coordinates.arePart fun _ => ⟨?_, ?_⟩⟩
    · exact coordinates.areCoordinates
    · rw [coordinates.ofCoordinates?_texts]
      rfl
  · obtain ⟨parts, isText, areCurve⟩ := exists_curveParts x1 y1 x2 y2
    exact ⟨parts, isText,
      comes_back_with_parts readable isSame isName isSpan areDelays keeps.noCurve
        noKeyword areCurve fun isKeyword => (isListed isKeyword).elim⟩

end Again

/--
An animation that was read is written, and what is written is read as
an animation with the same parts, unless its name holds a curve or is
taken for its easing.
-/
theorem written_comes_back :
    ∀ (raw : String) (animation : Animation) (options : TextOptions),
      parse raw = .ok (some animation) →
      ∃ name text, animation.name = .str name ∧
        Handler.animation.toText options (.animation animation) = .ok text ∧
        (animation.KeepsName name →
          ∃ again, parse text = .ok (some again) ∧ SameParts again animation) := by
  intro raw animation _ isRead
  have readable := isReadable_of_parse isRead
  obtain ⟨name, isSame, isName⟩ := readable.name
  obtain ⟨span, isText, isSpan⟩ := exists_spanText readable.duration
  obtain ⟨delay, isDelay, areDelays⟩ :
      ∃ delay, IsOptionText Duration.text animation.delay? delay ∧
      ∀ chars ∈ delay, IsSpanText chars := by
    cases hasDelay : animation.delay? with
    | none => exact ⟨[], .none, List.forall_mem_nil _⟩
    | some delay =>
        obtain ⟨chars, isText, isSpan⟩ :=
          exists_spanText (readable.delay delay hasDelay)
        exact ⟨[chars], .some isText, List.forall_mem_singleton.mpr isSpan⟩
  cases hasEasing : animation.timing? with
  | none =>
      have isEasing : IsOptionText Timing.text animation.timing? [] := by
        rw [hasEasing]
        exact .none
      exact ⟨name, _, isSame, text_eq readable isSame isText isEasing isDelay,
        fun keeps =>
          comes_back_without_easing readable isSame isName isSpan areDelays
            keeps.noCurve hasEasing⟩
  | some timing =>
      rcases readable.easing timing hasEasing with
        ⟨keyword, isListed, rfl⟩ | ⟨x1, y1, x2, y2, rfl⟩
      · have isEasing :
            IsOptionText Timing.text animation.timing? [keyword.toList] := by
          rw [hasEasing]
          exact .some (congrArg Except.ok String.ofList_toList.symm)
        exact ⟨name, _, isSame, text_eq readable isSame isText isEasing isDelay,
          fun keeps =>
            comes_back_with_keyword readable isSame isName isSpan areDelays isText
              keeps isListed hasEasing⟩
      · have isWritten : ∀ parts : CubicBezier.Parts,
            (CubicBezier.mk (.float x1) (.float y1) (.float x2) (.float y2)).text =
              .ok (String.ofList (parts.written [])) →
            IsOptionText Timing.text animation.timing? [parts.written []] := by
          intro parts isCurveText
          rw [hasEasing]
          exact .some isCurveText
        by_cases keeps : animation.KeepsName name
        · obtain ⟨parts, isCurveText, comesBack⟩ :=
            comes_back_with_curve readable isSame isName isSpan areDelays keeps
              hasEasing
          exact ⟨name, _, isSame,
            text_eq readable isSame isText (isWritten parts isCurveText) isDelay,
            fun _ => comesBack⟩
        · obtain ⟨parts, isCurveText, _⟩ := exists_curveParts x1 y1 x2 y2
          exact ⟨name, _, isSame,
            text_eq readable isSame isText (isWritten parts isCurveText) isDelay,
            fun isKept => (keeps isKept).elim⟩

/-- Whether a text is read as an animation that keeps its name. -/
def readsKeeping (raw : String) : Bool :=
  (parse raw).toOption.join.any (fun animation =>
    match animation.name with
    | .str name => decide (animation.KeepsName name)
    | _ => false)

/-- The animation of a text is read again from what is written for it. -/
def ComesBack (raw : String) : Prop :=
  ∃ animation text again, parse raw = .ok (some animation) ∧
    Handler.animation.toText .standard (.animation animation) = .ok text ∧
    parse text = .ok (some again) ∧ SameParts again animation

/--
Names that fit nowhere come back, and an easing keyword does in front of the
same keyword and in front of a curve.
-/
theorem written_comes_back_of_names :
    ComesBack "fade-in 300ms ease-in-out 100ms infinite alternate both" ∧
      ComesBack "linear linear 1.5s 2" ∧
        ComesBack "cubic-bezier(0.4, 0, 0.2, 1) ease 1s" := by
  have comesBack : ∀ raw, readsKeeping raw = true → ComesBack raw := by
    intro raw readsKept
    obtain ⟨animation, isRead, isKept⟩ := exists_of_any_join readsKept
    obtain ⟨name, text, isSame, isWritten, isReadBack⟩ :=
      written_comes_back raw animation .standard isRead
    rw [isSame] at isKept
    obtain ⟨again, isAgain, same⟩ := isReadBack (of_decide_eq_true isKept)
    exact ⟨animation, text, again, isRead, isWritten, isAgain, same⟩
  exact ⟨comesBack _ (by decide +kernel), comesBack _ (by decide +kernel),
    comesBack _ (by decide +kernel)⟩

/--
Whether a text is read as an animation of one name, which is written and read
again as one of another name.
-/
def renames (raw name later : String) : Bool :=
  (parse raw).toOption.join.any (fun animation =>
    animation.name.isText name &&
      animation.text.toOption.any (fun text =>
        (parse text).toOption.join.any (fun again => again.name.isText later)))

/--
The animation of a text has another name when it is read from what
is written for it.
-/
def IsRenamed (raw : String) : Prop :=
  ∃ animation text again, parse raw = .ok (some animation) ∧
    Handler.animation.toText .standard (.animation animation) = .ok text ∧
    parse text = .ok (some again) ∧ again.name ≠ animation.name

theorem isRenamed_of_renames
    {raw name later : String}
    (isRead : renames raw name later = true)
    (differs : later ≠ name) :
    IsRenamed raw := by
  obtain ⟨animation, isRead, isNamed⟩ := exists_of_any_join isRead
  rw [Bool.and_eq_true] at isNamed
  obtain ⟨text, isWritten, isAgain⟩ := (Option.any_eq_true _ _).mp isNamed.2
  obtain ⟨again, isReadAgain, isLater⟩ := exists_of_any_join isAgain
  refine ⟨animation, text, again, isRead, eq_ok_of_toOption isWritten,
    isReadAgain, ?_⟩
  rw [Wire.eq_of_isText isNamed.1, Wire.eq_of_isText isLater]
  exact fun isSame => differs (Wire.str.inj isSame)

/--
The later of two easing keywords is the name, and in front it is taken for
the easing.  The later of two curves is the name as well, and in front it is
taken for the curve.
-/
theorem written_comes_back_renamed :
    IsRenamed "linear 1s ease" ∧
      IsRenamed "cubic-bezier(0,0,1,1) cubic-bezier(1,1,0,0) 1s" := by
  have isKeyword : renames "linear 1s ease" "ease" "linear" = true := by
    decide +kernel
  have isCurve :
      renames "cubic-bezier(0,0,1,1) cubic-bezier(1,1,0,0) 1s"
        "cubic-bezier(1,1,0,0)" "cubic-bezier(0," = true := by
    decide +kernel
  exact ⟨isRenamed_of_renames isKeyword (by decide),
    isRenamed_of_renames isCurve (by decide)⟩

end DesignTokens.Animation
