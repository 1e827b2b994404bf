import DesignTokens.Proofs.Reading
import DesignTokens.Proofs.Text.Blank
import DesignTokens.Proofs.Text.Spellings
import DesignTokens.Proofs.Value.Numerals
import DesignTokens.Registry.Handler
import DesignTokens.Value.Border
import DesignTokens.Value.Gradient

namespace DesignTokens

/-!
# Vocabularies of texts

Units of length, styles of lines and types of gradients are words of closed
lists.  A text is matched with such a list without regard to case, and what was
matched is kept in lowercase.  That is a word of the list in every text without
loose letters, and a stray in some texts that have one.
-/

open DesignTokens.Text

theorem mem_of_mem_trimChars
    {raw : String}
    {c : Char}
    (isChar : c ∈ trimChars raw.toList) :
    c ∈ raw.toList :=
  (trimChars_sublist raw.toList).subset isChar

namespace Dimension

/--
A word that is the given one when case is ignored is taken as that word, and
nothing is left.
-/
theorem scanWord?_of_sameWord
    {chars word : List Char}
    (isSame : sameWord chars word = true) :
    scanWord? word chars = some [] := by
  induction word generalizing chars with
  | nil =>
      obtain rfl : chars = [] := by simpa [sameWord] using isSame
      rfl
  | cons letter word inductionHypothesis =>
      cases chars with
      | nil => cases isSame
      | cons c rest =>
          simp only [sameWord, List.length_cons, Nat.add_right_cancel_iff,
            beq_iff_eq, List.zip_cons_cons, List.all_cons,
            Bool.and_eq_true] at isSame
          obtain ⟨isLength, isLetter, areRest⟩ := isSame
          rw [scanWord?, if_pos isLetter]
          exact inductionHypothesis (by simpa [sameWord, isLength] using areRest)

/--
The unit that a length is written with is a word of the vocabulary or a stray.
-/
theorem isWordOf_of_isUnit
    {raw : String}
    {chars : List Char}
    (isUnit : isUnit chars = true)
    (isPart : ∀ c ∈ chars, c ∈ raw.toList) :
    IsWordOf units raw (String.ofList (lowerChars chars)) := by
  have areSmall : units.all (fun unit => unit.toList.all isWordLetter) = true := by
    decide
  obtain ⟨unit, isListed, isSame⟩ := List.any_eq_true.mp isUnit
  have isWord :=
    isWordOf_of_scanWord? (scanWord?_of_sameWord isSame) isListed areSmall isPart
  simpa using isWord

/--
The unit of a length is the default one, a word of the vocabulary, or a stray.
-/
theorem unit_of_parse
    {text defaultUnit : String}
    {dimension : Dimension}
    (isRead : parse text defaultUnit = some dimension) :
    ∃ unit, dimension.unit = .str unit ∧
      (unit = lower defaultUnit ∨ IsWordOf units text unit) := by
  obtain ⟨written, isWritten, rfl⟩ := Option.map_eq_some_iff.mp isRead
  obtain ⟨numeral, rest, _, isForm, noUnit | ⟨isThere, isUnit⟩⟩ :=
    exists_numeral_of_scan? isWritten
  · refine ⟨_, rfl, .inl ?_⟩
    rw [noUnit]
  · refine ⟨_, rfl, .inr ?_⟩
    rw [isThere]
    simp only [lower, String.toList_ofList]
    have behindNumeral : skipBlank rest ⊆ trimChars text.toList := by
      rw [isForm]
      exact ((List.dropWhile_suffix _).trans
        (List.suffix_append numeral rest)).subset
    exact isWordOf_of_isUnit isUnit
      (fun c isChar => mem_of_mem_trimChars (behindNumeral isChar))

end Dimension

namespace Border

theorem scanUnit_cases
    (chars : List Char) :
    scanUnit chars = ([], chars) ∨
      ∃ unit ∈ widthUnits, ∃ rest, scanWord? unit.toList chars = some rest ∧
        scanUnit chars = (chars.take (chars.length - rest.length), rest) := by
  unfold scanUnit
  split
  · rename_i rest isTaken
    obtain ⟨unit, isListed, isTaken⟩ := List.exists_of_findSome?_eq_some isTaken
    exact .inr ⟨unit, isListed, rest, isTaken, rfl⟩
  · exact .inl rfl

theorem scanUnit_suffix
    (chars : List Char) :
    (scanUnit chars).2 <:+ chars := by
  rcases scanUnit_cases chars with isNone | ⟨unit, _, rest, isTaken, isSome⟩
  · rw [isNone]
  · rw [isSome]
    exact suffix_of_scanWord? isTaken

/--
The unit that a width is written with is one of the three that a width may have.
-/
theorem mem_units_of_scanUnit
    {chars : List Char}
    (isThere : (scanUnit chars).1.isEmpty = false) :
    String.ofList (lowerChars (scanUnit chars).1) ∈ widthUnits := by
  have areSmall : widthUnits.all (fun unit => unit.toList.all isWordLetter) =
      true := by
    decide
  have noStray : strays widthUnits = [] := by
    decide
  rcases scanUnit_cases chars with isNone | ⟨unit, isListed, rest, isTaken, isSome⟩
  · rw [isNone] at isThere
    cases isThere
  · have isWord : IsWordOf widthUnits (String.ofList chars) _ :=
      isWordOf_of_scanWord? isTaken isListed areSmall (by simp)
    rw [isSome]
    refine isWord.resolve_right ?_
    rw [noStray]
    rintro ⟨⟨⟩, _⟩

/-- The style that a line is written with is a word of the vocabulary or a stray. -/
theorem isWordOf_of_scanStyle?
    {raw : String}
    {chars style rest : List Char}
    (isTaken : scanStyle? chars = some (style, rest))
    (isPart : ∀ c ∈ chars, c ∈ raw.toList) :
    IsWordOf styles raw (String.ofList (lowerChars style)) := by
  have areSmall : styles.all (fun style => style.toList.all isWordLetter) =
      true := by
    decide
  obtain ⟨word, isListed, isTaken⟩ := List.exists_of_findSome?_eq_some isTaken
  simp only [Option.bind_eq_bind, Option.bind_eq_some_iff, Option.pure_def,
    Option.some.injEq, Prod.mk.injEq] at isTaken
  obtain ⟨tail, isWord, _, _, rfl, _⟩ := isTaken
  exact isWordOf_of_scanWord? isWord isListed areSmall isPart

theorem suffix_of_scanBlanks?
    {chars rest : List Char}
    (isTaken : Color.scanBlanks? chars = some rest) :
    rest <:+ chars := by
  unfold Color.scanBlanks? at isTaken
  split at isTaken
  · split at isTaken
    · cases isTaken
      exact List.dropWhile_suffix _
    · cases isTaken
  · cases isTaken

/--
What starts a border has a unit of widths or none, and a style
or a stray of one.
-/
theorem words_of_scanStart?
    {raw : String}
    {chars rest : List Char}
    {start : Start}
    (isTaken : scanStart? chars = some (start, rest))
    (isPart : ∀ c ∈ chars, c ∈ raw.toList) :
    (start.unit.isEmpty = false →
      String.ofList (lowerChars start.unit) ∈ widthUnits) ∧
      IsWordOf styles raw (String.ofList (lowerChars start.style)) := by
  unfold scanStart? at isTaken
  simp only [Option.bind_eq_bind, Option.bind_eq_some_iff, Option.pure_def,
    Option.some.injEq, Prod.exists, Prod.mk.injEq] at isTaken
  obtain ⟨width, behindWidth, isWidth, behindUnit, areBlanks, style, behindStyle,
    isStyle, rfl, _⟩ :=
    isTaken
  refine ⟨mem_units_of_scanUnit, isWordOf_of_scanStyle? isStyle fun c isChar =>
    isPart c ?_⟩
  obtain ⟨numeral, _, rfl⟩ := Number.exists_numeral_of_scanUnsigned? isWidth
  have isEnd :=
    (suffix_of_scanBlanks? areBlanks).trans (scanUnit_suffix behindWidth)
  exact List.mem_append_right _ (isEnd.subset isChar)

/--
The width of a border has a unit of length, and its style is a word of the
vocabulary or a stray.
-/
theorem words_of_parse
    {raw : String}
    {border : Border}
    (isRead : parse raw = .ok (some border)) :
    (∃ unit ∈ Dimension.units, border.width.unit = .str unit) ∧
      ∃ style, border.style = .str style ∧ IsWordOf styles raw style := by
  have areUnits : ∀ unit ∈ widthUnits, unit ∈ Dimension.units := by
    decide
  unfold parse at isRead
  split at isRead
  · cases isRead
  · rename_i start colorText isStart
    split at isRead
    · cases isRead
    · obtain ⟨color, _, isBorder⟩ := bind_eq_ok_iff.mp isRead
      obtain ⟨color, _, rfl⟩ :=
        Option.map_eq_some_iff.mp (pure_eq_ok_iff.mp isBorder)
      obtain ⟨isUnit, isStyle⟩ :=
        words_of_scanStart? isStart (fun c => mem_of_mem_trimChars)
      refine ⟨⟨_, ?_, rfl⟩, _, rfl, isStyle⟩
      split
      · decide
      · rename_i isThere
        exact areUnits _ (isUnit (Bool.eq_false_iff.mpr isThere))

end Border

namespace Gradient

/-- The type of a gradient is a word of the vocabulary or a stray. -/
theorem isWordOf_of_parse
    {raw : String}
    {gradient : Gradient}
    (isRead : parse raw = .ok (some gradient)) :
    ∃ type, gradient.type = .str type ∧ IsWordOf types raw type := by
  have areSmall : types.all (fun type => type.toList.all isWordLetter) = true := by
    decide
  unfold parse at isRead
  simp only at isRead
  split at isRead
  · cases isRead
  · rename_i name rest isName
    split at isRead
    · cases isRead
    · obtain ⟨stops, _, isRead⟩ := bind_eq_ok_iff.mp isRead
      split at isRead
      · cases isRead
      · cases isRead
        obtain ⟨word, isListed, isTaken⟩ := List.exists_of_findSome?_eq_some isName
        simp only [Option.bind_eq_bind, Option.bind_eq_some_iff, Option.pure_def,
          Option.some.injEq, Prod.mk.injEq] at isTaken
        obtain ⟨tail, isWord, _, _, _, _, rfl, _⟩ := isTaken
        exact ⟨_, rfl,
          isWordOf_of_scanWord? isWord isListed areSmall
            (fun c => mem_of_mem_trimChars)⟩

end Gradient

/--
The words that come with lengths, borders and gradients are words of the closed
vocabularies, wherever no loose letter stands in the text.  Where one does, they
are words of the vocabularies or strays, which the unit of a border never is.
-/
theorem words_of_texts
    (raw defaultUnit : String) :
    (∀ dimension, Dimension.parse raw defaultUnit = some dimension →
      ∃ unit, dimension.unit = .str unit ∧
        (unit = lower defaultUnit ∨ IsWordOf Dimension.units raw unit)) ∧
    (∀ border, Border.parse raw = .ok (some border) →
      (∃ unit ∈ Dimension.units, border.width.unit = .str unit) ∧
        ∃ style, border.style = .str style ∧ IsWordOf Border.styles raw style) ∧
    ∀ gradient, Gradient.parse raw = .ok (some gradient) →
      ∃ type, gradient.type = .str type ∧ IsWordOf Gradient.types raw type :=
  ⟨fun _ => Dimension.unit_of_parse, fun _ => Border.words_of_parse,
    fun _ => Gradient.isWordOf_of_parse⟩

/-- Of the many spellings of a unit or a type, few are strays. -/
example :
    strays Dimension.units = ["\u017Fvh"] ∧
      strays Gradient.types =
        [ "l\u0131near", "li\u0307near", "rad\u0131al", "radi\u0307al",
          "con\u0131c", "coni\u0307c" ] := by
  decide

theorem Wire.eq_of_isText
    {text : String}
    {value : Wire}
    (isSame : value.isText text = true) :
    value = .str text := by
  unfold isText at isSame
  split at isSame
  · rw [eq_of_beq isSame]
  · cases isSame

/-- Whether a text is read as a border with the given style. -/
def readsStyle (raw style : String) : Bool :=
  (Border.parse raw).toOption.join.any (fun border => border.style.isText style)

/-- Whether a text is read as a gradient of the given type. -/
def readsType (raw type : String) : Bool :=
  (Gradient.parse raw).toOption.join.any (fun gradient => gradient.type.isText type)

theorem words_of_plain_texts :
    ((∃ dimension, Dimension.parse "16 REM" "px" = some dimension ∧
      ∃ unit ∈ Dimension.units, dimension.unit = .str unit)) ∧
    (∃ border, Border.parse "1px Solid red" = .ok (some border) ∧
      ∃ style ∈ Border.styles, border.style = .str style) ∧
    ∃ gradient, Gradient.parse "Linear-Gradient(red, blue)" = .ok (some gradient) ∧
      ∃ type ∈ Gradient.types, gradient.type = .str type := by
  have isDimension : (Dimension.parse "16 REM" "px").isSome = true := by
    decide +kernel
  have isBorder : readsStyle "1px Solid red" "solid" = true := by
    decide +kernel
  have isGradient : readsType "Linear-Gradient(red, blue)" "linear" = true := by
    decide +kernel
  obtain ⟨dimension, isDimension⟩ := Option.isSome_iff_exists.mp isDimension
  obtain ⟨border, isBorder, _⟩ := exists_of_any_join isBorder
  obtain ⟨gradient, isGradient, _⟩ := exists_of_any_join isGradient
  obtain ⟨unit, hasUnit, isUnit⟩ := (words_of_texts "16 REM" "px").1 _ isDimension
  obtain ⟨_, style, hasStyle, isStyle⟩ :=
    (words_of_texts "1px Solid red" "px").2.1 _ isBorder
  obtain ⟨type, hasType, isType⟩ :=
    (words_of_texts "Linear-Gradient(red, blue)" "px").2.2 _ isGradient
  refine ⟨⟨dimension, isDimension, unit, ?_, hasUnit⟩,
    ⟨border, isBorder, style, isStyle.mem (by decide), hasStyle⟩,
    gradient, isGradient, type, isType.mem (by decide), hasType⟩
  rcases isUnit with rfl | isWord
  · decide +kernel
  · exact isWord.mem (by decide)

/--
A text that is lowercased to the given one: a dot behind an i is
put on a capital.
-/
def withCapitalDots : List Char → List Char
  | 'i' :: '\u0307' :: rest => '\u0130' :: withCapitalDots rest
  | c :: rest => c :: withCapitalDots rest
  | [] => []

/-- Every stray unit, style and type comes from some text. -/
theorem strays_of_texts :
    (∀ unit ∈ strays Dimension.units, unit ∉ Dimension.units ∧
      ∃ raw dimension, Dimension.parse raw "px" = some dimension ∧
        dimension.unit = .str unit) ∧
    (∀ style ∈ strays Border.styles, style ∉ Border.styles ∧
      ∃ raw border, Border.parse raw = .ok (some border) ∧
        border.style = .str style) ∧
    (∀ type ∈ strays Gradient.types, type ∉ Gradient.types ∧
      ∃ raw gradient, Gradient.parse raw = .ok (some gradient) ∧
        gradient.type = .str type) ∧
    strays Dimension.units ≠ [] ∧ strays Border.styles ≠ [] ∧
      strays Gradient.types ≠ [] := by
  have areUnits :
      ∀ unit ∈ strays Dimension.units, unit ∉ Dimension.units ∧
        (Dimension.parse ("1" ++ unit) "px").any
          (fun dimension => dimension.unit.isText unit) = true := by
    decide +kernel
  have areStyles :
      ∀ style ∈ strays Border.styles, style ∉ Border.styles ∧
        readsStyle ("1px " ++ String.ofList (withCapitalDots style.toList) ++
          " red") style = true := by
    decide +kernel
  have areTypes :
      ∀ type ∈ strays Gradient.types, type ∉ Gradient.types ∧
        readsType (String.ofList (withCapitalDots type.toList) ++
          "-gradient(red, blue)") type = true := by
    decide +kernel
  refine ⟨fun unit isStray => ?_, fun style isStray => ?_, fun type isStray => ?_,
    by decide +kernel⟩
  · obtain ⟨notListed, isRead⟩ := areUnits unit isStray
    obtain ⟨dimension, isRead, isUnit⟩ := (Option.any_eq_true _ _).mp isRead
    exact ⟨notListed, _, dimension, isRead, Wire.eq_of_isText isUnit⟩
  · obtain ⟨notListed, isRead⟩ := areStyles style isStray
    obtain ⟨border, isRead, isStyle⟩ := exists_of_any_join isRead
    exact ⟨notListed, _, border, isRead, Wire.eq_of_isText isStyle⟩
  · obtain ⟨notListed, isRead⟩ := areTypes type isStray
    obtain ⟨gradient, isRead, isType⟩ := exists_of_any_join isRead
    exact ⟨notListed, _, gradient, isRead, Wire.eq_of_isText isType⟩

end DesignTokens
