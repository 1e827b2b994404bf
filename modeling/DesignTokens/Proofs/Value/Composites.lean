import DesignTokens.Proofs.Color.Forms
import DesignTokens.Proofs.Value.Numerals
import DesignTokens.Proofs.Value.Reading

namespace DesignTokens

/-!
# Marks of composite values

A gradient holds a parenthesis, a border a blank and steps a colon.  A layer of a
shadow has two lengths at least, so a digit stands behind a blank in it.
-/

open DesignTokens.Text

/-- A text that is a function of a gradient holds a parenthesis. -/
theorem Gradient.mem_of_startsLikeGradient
    {chars : List Char}
    (isGradient : startsLikeGradient chars = true) :
    '(' ∈ chars := by
  obtain ⟨found, isNamed⟩ := Option.isSome_iff_exists.mp isGradient
  obtain ⟨type, _, isTaken⟩ := List.exists_of_findSome?_eq_some isNamed
  obtain ⟨rest, isType, afterType⟩ := Option.bind_eq_some_iff.mp isTaken
  obtain ⟨after, isWord, afterWord⟩ := Option.bind_eq_some_iff.mp afterType
  obtain ⟨content, isOpen, _⟩ := Option.bind_eq_some_iff.mp afterWord
  have inSkipped : '(' ∈ skipBlank after :=
    (prefix_of_after? isOpen).subset List.mem_cons_self
  have inAfter : '(' ∈ after := (List.dropWhile_suffix isBlank).subset inSkipped
  exact (suffix_of_scanWord? isType).subset
    ((suffix_of_scanWord? isWord).subset inAfter)

/-- A border holds a blank. -/
theorem Border.exists_blank_of_startsLikeBorder
    {chars : List Char}
    (isBorder : startsLikeBorder chars = true) :
    ∃ c ∈ chars, isBlank c = true := by
  obtain ⟨found, isStart⟩ := Option.isSome_iff_exists.mp isBorder
  obtain ⟨⟨width, rest⟩, isWidth, afterWidth⟩ := Option.bind_eq_some_iff.mp isStart
  obtain ⟨behind, isBlanks, _⟩ := Option.bind_eq_some_iff.mp afterWidth
  have unitSuffix : (scanUnit rest).2 <:+ rest := by
    unfold scanUnit
    split
    · rename_i left isUnit
      obtain ⟨unit, _, isWord⟩ := List.exists_of_findSome?_eq_some isUnit
      exact suffix_of_scanWord? isWord
    · exact List.suffix_refl _
  obtain ⟨numeral, _, rfl⟩ := Number.exists_numeral_of_scanUnsigned? isWidth
  have inWhole := unitSuffix.trans (List.suffix_append numeral rest)
  unfold Color.scanBlanks? at isBlanks
  split at isBlanks
  · rename_i c more isForm
    split at isBlanks
    · rename_i blank
      exact ⟨c, inWhole.subset (isForm ▸ List.mem_cons_self), blank⟩
    · cases isBlanks
  · cases isBlanks

/-- Without a colon there are no steps. -/
theorem Keyframes.parse_of_not_mem
    {raw : String}
    (noColon : ':' ∉ raw.toList) :
    parse raw = none := by
  have noStep : (splitOn ';' raw.toList).filterMap parseStep? = [] := by
    rw [List.filterMap_eq_nil_iff]
    intro piece isPiece
    unfold parseStep?
    simp only
    split
    · rename_i rest behind
      have inTrimmed : ':' ∈ trimChars piece :=
        (List.dropWhile_sublist _).subset (behind ▸ List.mem_cons_self)
      have inPiece := (trimChars_sublist piece).subset inTrimmed
      exact (noColon (mem_of_mem_splitOn isPiece inPiece)).elim
    · rfl
  rw [parse, noStep]

namespace Shadow

/-- What a scanner takes from a text, and what it leaves as the end of it. -/
structure Taken (chars found after : List Char) : Prop where
  subset :
    found ⊆ chars
  suffix :
    after <:+ chars

theorem taken_of_scanColorFunction?
    {ignoreCase emptyArguments : Bool}
    {chars after found : List Char}
    (isTaken : scanColorFunction? ignoreCase emptyArguments chars =
      some (found, after)) :
    Taken chars found after := by
  unfold scanColorFunction? at isTaken
  simp only at isTaken
  split at isTaken
  · cases isTaken
  · rename_i rest isOpened
    have restSuffix : rest <:+ chars := by
      obtain ⟨name, _, isName⟩ := List.exists_of_findSome?_eq_some isOpened
      split at isName
      · exact suffix_of_scanWord? isName
      · exact suffix_of_after? isName
    split at isTaken
    · rename_i behind isClosed
      split at isTaken
      · cases isTaken
      · obtain ⟨rfl, rfl⟩ := Prod.mk.inj (Option.some.inj isTaken)
        have closingSuffix : ')' :: behind <:+ rest :=
          isClosed ▸ List.dropWhile_suffix _
        exact ⟨List.take_subset _ _,
          (List.suffix_cons _ _).trans (closingSuffix.trans restSuffix)⟩
    · cases isTaken

theorem taken_of_scanHexColor?
    {chars after found : List Char}
    (isTaken : scanHexColor? chars = some (found, after)) :
    Taken chars found after := by
  unfold scanHexColor? at isTaken
  split at isTaken
  · simp only at isTaken
    split at isTaken
    · obtain ⟨rfl, rfl⟩ := Prod.mk.inj (Option.some.inj isTaken)
      exact ⟨List.cons_subset_cons _ (List.takeWhile_subset _),
        (List.dropWhile_suffix _).trans (List.suffix_cons _ _)⟩
    · cases isTaken
  · cases isTaken

theorem taken_of_scanLayerColor?
    {chars after found : List Char}
    (isTaken : scanLayerColor? chars = some (found, after)) :
    Taken chars found after := by
  unfold scanLayerColor? at isTaken
  split at isTaken
  · rename_i isHex
    obtain rfl := Option.some.inj isTaken
    exact taken_of_scanHexColor? isHex
  · split at isTaken
    · rename_i isFunction
      obtain rfl := Option.some.inj isTaken
      exact taken_of_scanColorFunction? isFunction
    · unfold scanLetters? at isTaken
      simp only at isTaken
      split at isTaken
      · cases isTaken
      · obtain ⟨rfl, rfl⟩ := Prod.mk.inj (Option.some.inj isTaken)
        exact ⟨List.takeWhile_subset _, List.dropWhile_suffix _⟩

/--
A possible color of a text is made of its characters, and the text
around it is a part.
-/
theorem subset_and_sublist_of_candidate
    {chars : List Char}
    {candidate : Match (List Char)}
    (isCandidate : candidate ∈ findAll scanLayerColor? chars) :
    candidate.found ⊆ chars ∧
      (candidate.before ++ candidate.after).Sublist chars := by
  obtain ⟨_, front, isTaken, shape⟩ := exists_place_of_mem_findAllFrom
    (fun isTaken => (taken_of_scanLayerColor? isTaken).suffix) isCandidate
  have taken := taken_of_scanLayerColor? isTaken
  rw [List.reverse_nil, List.nil_append] at shape
  rw [shape]
  exact ⟨fun c isChar => List.mem_append_right _ (taken.subset isChar),
    List.Sublist.append_left taken.suffix.sublist _⟩

/-- The text around the first color is a part of the text. -/
theorem exists_of_firstColor
    {candidates : List (Match (List Char))}
    {color : Color}
    {rest : List Char}
    (isFirst : firstColor candidates = .ok (some (color, rest))) :
    ∃ candidate ∈ candidates,
      rest = trimChars (candidate.before ++ candidate.after) := by
  induction candidates with
  | nil => cases isFirst
  | cons candidate others inductionHypothesis =>
      obtain ⟨color?, _, next⟩ := bind_eq_ok_iff.mp isFirst
      cases color? with
      | none =>
          obtain ⟨later, isLater, isRest⟩ := inductionHypothesis next
          exact ⟨later, List.mem_cons_of_mem _ isLater, isRest⟩
      | some found =>
          have isPair := Option.some.inj (pure_eq_ok_iff.mp next)
          exact ⟨candidate, List.mem_cons_self, (Prod.mk.inj isPair).2.symm⟩

theorem sublist_of_firstColor
    {chars rest : List Char}
    {color : Color}
    (isFirst : firstColor (findAll scanLayerColor? chars) =
      .ok (some (color, rest))) :
    rest.Sublist chars := by
  obtain ⟨candidate, isCandidate, rfl⟩ := exists_of_firstColor isFirst
  exact (trimChars_sublist _).trans (subset_and_sublist_of_candidate isCandidate).2

/-- Two lengths at least make up a layer. -/
theorem exists_second_of_ofLengths?
    {lengths : List Dimension}
    {color : Color}
    {inset : Bool}
    {shadow : Shadow}
    (isLayer : ofLengths? lengths color inset = some shadow) :
    ∃ first second rest, lengths = first :: second :: rest := by
  unfold ofLengths? at isLayer
  split at isLayer
  · exact ⟨_, _, _, rfl⟩
  · exact ⟨_, _, _, rfl⟩
  · exact ⟨_, _, _, rfl⟩
  · cases isLayer

/-- Where several words are read as lengths, one behind the first holds a digit. -/
theorem exists_decimal_of_mapM
    {chars : List Char}
    {first second : Dimension}
    {rest : List Dimension}
    (areRead :
      (words chars).mapM (fun word => Dimension.parse (String.ofList word) "px") =
        some (first :: second :: rest)) :
    ∃ word ∈ (words chars).tail, ∃ c ∈ word, isDecimal c = true := by
  generalize words chars = list at areRead ⊢
  match list with
  | [] => simp at areRead
  | [_] =>
      obtain ⟨_, _, afterFirst⟩ := Option.bind_eq_some_iff.mp areRead
      cases afterFirst
  | _ :: second :: more =>
      rw [List.mapM_cons, List.mapM_cons] at areRead
      obtain ⟨_, _, afterFirst⟩ := Option.bind_eq_some_iff.mp areRead
      obtain ⟨_, restRead, _⟩ := Option.bind_eq_some_iff.mp afterFirst
      obtain ⟨length, isRead, _⟩ := Option.bind_eq_some_iff.mp restRead
      obtain ⟨c, isChar, decimal⟩ := Dimension.exists_decimal_of_parse isRead
      rw [String.toList_ofList] at isChar
      exact ⟨second, List.mem_cons_self, c,
        (trimChars_sublist second).subset isChar, decimal⟩

/-- A layer without an inset mark has a digit behind a blank. -/
theorem parseLayer_eq_none
    {raw : String}
    (noMark : hasWholeWord "inset".toList none (trimChars raw.toList) = false)
    (noDigit : (trimChars raw.toList).Pairwise
      (fun earlier later => isBlank earlier = true → isDecimal later = false))
    {layer? : Option Shadow}
    (isRead : parseLayer raw = .ok layer?) :
    layer? = none := by
  have tooFew {rest : List Char} (isPart : rest.Sublist (trimChars raw.toList))
      {lengths : List Dimension}
      (areRead : (words rest).mapM
        (fun word => Dimension.parse (String.ofList word) "px") = some lengths)
      (color : Color) : ofLengths? lengths color false = none := by
    rw [Option.eq_none_iff_forall_ne_some]
    intro shadow isShadow
    obtain ⟨first, second, others, rfl⟩ := exists_second_of_ofLengths? isShadow
    obtain ⟨word, isLater, c, isChar, decimal⟩ := exists_decimal_of_mapM areRead
    cases decimal.symm.trans
      (of_mem_tail_wordsFrom (noDigit.sublist isPart) isLater isChar)
  unfold parseLayer at isRead
  simp only [noMark, Bool.false_eq_true, if_false] at isRead
  obtain ⟨color?, isFirst, next⟩ := bind_eq_ok_iff.mp isRead
  cases color? with
  | none =>
      split at next
      · exact (pure_eq_ok_iff.mp next).symm
      · rename_i lengths areRead
        rw [← pure_eq_ok_iff.mp next]
        exact tooFew (List.Sublist.refl _) areRead _
  | some found =>
      split at next
      · exact (pure_eq_ok_iff.mp next).symm
      · rename_i lengths areRead
        rw [← pure_eq_ok_iff.mp next]
        -- Taking the color out of the text leaves a part of it.
        exact tooFew (sublist_of_firstColor isFirst) areRead _

/-- A text without commas is one layer. -/
theorem splitLayers_of_not_mem
    {raw : String}
    (noComma : ',' ∉ trimChars raw.toList) :
    splitLayers (trim raw) = [trim raw] := by
  rw [splitLayers, toList_trim, splitAtDepthZero_of_not_mem noComma,
    List.map_singleton, trimChars_trimChars, trim]

/-- Without a parenthesis no color of a single layer overflows. -/
theorem not_hasOverflow
    {raw : String}
    (noComma : ',' ∉ trimChars raw.toList)
    (noParenthesis : '(' ∉ trimChars raw.toList)
    (noMark : hasWholeWord "inset".toList none (trimChars raw.toList) = false) :
    ¬ HasOverflow raw := by
  rintro ⟨_, piece, isPiece, _, before, candidate, after, isList, _, overflows⟩
  rw [splitLayers_of_not_mem noComma] at isPiece
  obtain rfl := List.mem_singleton.mp isPiece
  have isWhole : layerText (trim raw) = trimChars raw.toList := by
    unfold layerText
    simp only [toList_trim, trimChars_trimChars, noMark, Bool.false_eq_true,
      if_false]
  rw [isWhole] at isList
  have isCandidate : candidate ∈ findAll scanLayerColor? (trimChars raw.toList) :=
    isList ▸ List.mem_append_right _ List.mem_cons_self
  have inFound :=
    (trimChars_sublist _).subset (Color.parenthesis_mem_of_overflows overflows)
  rw [String.toList_ofList] at inFound
  exact noParenthesis ((subset_and_sublist_of_candidate isCandidate).1 inFound)

/--
A text without commas and parentheses, and without a digit behind a
blank, is no shadow.
-/
theorem parse_eq_none
    {raw : String}
    (noComma : ',' ∉ trimChars raw.toList)
    (noParenthesis : '(' ∉ trimChars raw.toList)
    (noMark : hasWholeWord "inset".toList none (trimChars raw.toList) = false)
    (noDigit : (trimChars raw.toList).Pairwise
      (fun earlier later => isBlank earlier = true → isDecimal later = false)) :
    parse raw = .ok none := by
  obtain ⟨layers?, isRead⟩ :=
    succeeds_parse_iff.mpr (not_hasOverflow noComma noParenthesis noMark)
  rw [isRead]
  have noEffect : startsWith "Effect(".toList (trim raw).toList = false := by
    rw [← Bool.not_eq_true]
    intro starts
    rw [toList_trim] at starts
    have isChar : '(' ∈ "Effect(".toList := by decide
    exact noParenthesis (mem_of_startsWith starts isChar)
  unfold parse at isRead
  simp only [noEffect, Bool.false_eq_true, if_false,
    splitLayers_of_not_mem noComma] at isRead
  obtain ⟨layers, areRead, next⟩ := bind_eq_ok_iff.mp isRead
  have noLayers : ∀ layer ∈ layers, layer = none := by
    intro layer isLayer
    obtain ⟨piece, isPiece, isRead⟩ := exists_of_mem_mapM areRead isLayer
    obtain rfl := List.mem_singleton.mp (List.mem_of_mem_filter isPiece)
    refine parseLayer_eq_none ?_ ?_ isRead
    · rw [toList_trim, trimChars_trimChars]
      exact noMark
    · rw [toList_trim, trimChars_trimChars]
      exact noDigit
  cases layers with
  | nil => exact next.symm
  | cons layer others =>
      obtain rfl := noLayers layer List.mem_cons_self
      exact next.symm

end Shadow

end DesignTokens
