import DesignTokens.Proofs.Value.GradientAngles
import DesignTokens.Proofs.Value.GradientNames
import DesignTokens.Wire.Equal

namespace DesignTokens.Gradient

/-!
# Written gradients are read again

A gradient that was read from a text is written with its type, its stops and,
when it is linear, an angle in six digits.  The written text is a gradient of
the same type with as many stops, unless the name of the type has lost its dot
on the way.  Its angle comes back as the double nearest to its six digits.
-/

open DesignTokens.Text
open DesignTokens.Number
  (PlainNumeral IsExponentText IsPlainInSix IsNearestInSix HasSixDigits
  sixDigits size)

/-! Functions. -/

/-- A gradient function as it is written. -/
def functionText (name : String) (content : List Char) : String :=
  String.ofList (name.toList ++ ("-gradient(".toList ++ (content ++ [')'])))

/--
A written function begins with its name and ends in a parenthesis,
so it is trimmed.
-/
theorem trimChars_functionText
    {name : String}
    (isInk : name.toList.head?.map isBlank = some false)
    (content : List Char) :
    trimChars (functionText name content).toList =
      name.toList ++ ("-gradient(".toList ++ (content ++ [')'])) := by
  rw [functionText, String.toList_ofList]
  refine Trimmed.trimChars_eq ⟨fun c isFirst => ?_, fun c isLast => ?_⟩
  · obtain ⟨first, isName, firstInk⟩ := Option.map_eq_some_iff.mp isInk
    rw [List.head?_append, isName] at isFirst
    cases isFirst
    exact firstInk
  · rw [← List.append_assoc, ← List.append_assoc, List.getLast?_concat] at isLast
    cases isLast
    decide

/--
A written function is a gradient of its name, with a stop for every color in it.
-/
theorem exists_parse_functionText
    {name type : String}
    {content rest : List Char}
    {angle : Wire}
    {count : Nat}
    (isPlain : (name, type) ∈ plainTypes)
    (trimmed : Trimmed content)
    (isContent : (if name = "linear" then takeAngle content else (.null, content)) =
      (angle, rest))
    (holds : HoldsColors (foundIn scanStop? rest) count)
    (isThere : count ≠ 0) :
    ∃ again, parse (functionText name content) = .ok (some again) ∧
      again.type = .str name ∧
      again.stops.length = count ∧ again.angle = angle := by
  have areLower : ∀ entry ∈ plainTypes, String.ofList (lowerChars entry.1.toList) =
      entry.1 := by
    decide
  have areInk :
      ∀ entry ∈ plainTypes, entry.1.toList.head?.map isBlank = some false := by
    decide
  have isText := trimChars_functionText (areInk _ isPlain) content
  have isClosed :
      (name.toList ++ ("-gradient(".toList ++ (content ++ [')']))).getLast? =
        some ')' := by
    rw [← List.append_assoc, ← List.append_assoc, List.getLast?_concat]
  obtain ⟨stops, areStops, isLength⟩ := exists_stopsOf holds []
  have hasStop : stops ≠ [] := by
    rintro rfl
    rw [List.length_nil, Nat.zero_add] at isLength
    exact isThere isLength.symm
  refine ⟨⟨.str name, stops, angle⟩, ?_, rfl, by simpa using isLength, rfl⟩
  unfold parse
  simp only [isText, scanName?_plain isPlain, isClosed, areLower _ isPlain,
    List.dropLast_concat, trimmed.trimChars_eq, isContent, areStops]
  simp [hasStop, pure, Except.pure]

/-- A written function of a name with a dot of its own is no gradient. -/
theorem parse_functionText_dotted
    {name : String}
    (isDotted : name ∈ dottedTypes)
    (content : List Char) :
    parse (functionText name content) = .ok none := by
  have areInk :
      ∀ name ∈ dottedTypes, name.toList.head?.map isBlank = some false := by
    decide
  unfold parse
  simp only [trimChars_functionText (areInk name isDotted) content,
    scanName?_dotted isDotted]

/-! Gradients that were read. -/

/-- A gradient as it is read from a text, under a name. -/
structure IsReadAs (gradient : Gradient) (name : String) : Prop where
  hasType : gradient.type = .str name
  hasName : name ∈ plainTypes.map Prod.fst ∨ name ∈ dottedTypes
  areRead : ∀ stop ∈ gradient.stops, IsRead stop
  hasStop : gradient.stops ≠ []
  hasAngle : gradient.angle = .null ∨
    name = "linear" ∧ ∃ angle, gradient.angle = .float angle

theorem takeAngle_cases
    (content : List Char) :
    (takeAngle content).1 = .null ∨
      ∃ angle, (takeAngle content).1 = .float angle := by
  unfold takeAngle
  split
  · exact .inr ⟨_, rfl⟩
  · split
    · exact .inr ⟨_, rfl⟩
    · exact .inl rfl

theorem exists_isReadAs
    {raw : String}
    {gradient : Gradient}
    (isRead : parse raw = .ok (some gradient)) :
    ∃ name, IsReadAs gradient name := by
  unfold parse at isRead
  simp only at isRead
  split at isRead
  · cases isRead
  · rename_i name rest isName
    split at isRead
    · cases isRead
    · obtain ⟨stops, areStops, isRead⟩ := bind_eq_ok_iff.mp isRead
      split at isRead
      · cases isRead
      · rename_i hasStop
        cases isRead
        refine ⟨_, rfl, type_of_scanName? isName,
          isRead_of_stopsOf areStops (List.forall_mem_nil _), by simpa using
            hasStop, ?_⟩
        split
        · rename_i isLinear
          exact (takeAngle_cases _).imp_right fun isFloat => ⟨isLinear, isFloat⟩
        · exact .inl rfl

/-! Written gradients. -/

section Reading

variable {stops : List StopText} {chars : List Char}

/--
A written linear gradient is read with its stops and the angle that is written.
-/
theorem exists_parse_linear
    (isText : IsAngleText chars)
    (isThere : stops ≠ []) :
    ∃ again, parse (functionText "linear" (chars ++ behindAngle stops)) =
      .ok (some again) ∧
      again.type = .str "linear" ∧ again.stops.length = stops.length ∧
      ∀ numeral : PlainNumeral, chars = numeral.text →
        again.angle = .float numeral.value := by
  have isPlain : ("linear", "linear") ∈ plainTypes := List.mem_cons_self
  have trimmed : Trimmed (chars ++ behindAngle stops) := by
    obtain ⟨c, more, isForm, isInk⟩ := not_isBlank_of_isAngleText isText
    have isFront :
        chars ++ behindAngle stops = chars ++ "deg, ".toList ++ printed stops := by
      rw [List.append_assoc]
      rfl
    rw [isFront, isForm]
    refine trimmed_append_printed isThere ?_
    rintro first ⟨⟩
    exact isInk
  by_cases isNumeral : ∃ numeral : PlainNumeral, chars = numeral.text
  · obtain ⟨numeral, rfl⟩ := isNumeral
    -- The numeral at hand may lack digits before the point; the written one has
    -- them.
    obtain ⟨same, startsWhole, isSame⟩ := isPlainText_of_isAngleText isText
    rw [isSame] at trimmed ⊢
    obtain ⟨again, isRead, isLinear, isLength, isAngle⟩ :=
      exists_parse_functionText isPlain trimmed
      ((if_pos rfl).trans (takeAngle_plain startsWhole isThere))
      (holdsColors_printed isThere)
      (mt List.length_eq_zero_iff.mp isThere)
    refine ⟨again, isRead, isLinear, isLength, fun other isText => ?_⟩
    rw [isAngle, PlainNumeral.value_eq_of_text_eq isText]
  · have isOther : IsExponentText chars ∨
        String.ofList chars ∈ Number.infiniteWords :=
      isText.resolve_left fun ⟨numeral, _, isForm⟩ => isNumeral ⟨numeral, isForm⟩
    obtain ⟨again, isRead, isLinear, isLength, _⟩ :=
      exists_parse_functionText isPlain trimmed
      ((if_pos rfl).trans (takeAngle_other isOther))
      (holdsColors_other isOther isThere)
      (mt List.length_eq_zero_iff.mp isThere)
    exact ⟨again, isRead, isLinear, isLength,
      fun numeral isForm => (isNumeral ⟨numeral, isForm⟩).elim⟩

/--
A written gradient that is not linear is read with its stops and
without an angle.
-/
theorem exists_parse_other
    {name type : String}
    (isPlain : (name, type) ∈ plainTypes)
    (notLinear : name ≠ "linear")
    (isThere : stops ≠ []) :
    ∃ again, parse (functionText name (printed stops)) = .ok (some again) ∧
      again.type = .str name ∧ again.stops.length = stops.length ∧
        again.angle = .null := by
  have trimmed : Trimmed ([] ++ printed stops) :=
    trimmed_append_printed isThere (by rintro c ⟨⟩)
  exact exists_parse_functionText isPlain trimmed (if_neg notLinear)
    (holdsColors_printed isThere) (mt List.length_eq_zero_iff.mp isThere)

end Reading

/-- Whether the type of a gradient is a name whose dot has come off the i. -/
def hasDottedType (gradient : Gradient) : Bool :=
  match gradient.type with
  | .str name => dottedTypes.contains name
  | _ => false

/--
A linear gradient is written with its angle, any other one with its stops alone.
-/
theorem text_eq
    {gradient : Gradient}
    {name : String}
    {chars : List Char}
    {written : List StopText}
    (hasType : gradient.type = .str name)
    (isAngle : gradient.angleText = .ok (String.ofList chars))
    (areTexts : gradient.stops.mapM GradientStop.text =
      .ok (written.map (fun stop => String.ofList stop.text))) :
    gradient.text =
      .ok
        (functionText name
          (if name = "linear" then chars ++ behindAngle written
          else printed written)) := by
  unfold text isLinear
  rw [areTexts, hasType]
  by_cases isLinear : name = "linear"
  · subst isLinear
    rw [isAngle, if_pos rfl]
    refine congrArg Except.ok ?_
    rw [← String.toList_inj]
    simp [functionText, behindAngle, printed]
  · have notLinear : (name == "linear") = false := by simpa using isLinear
    simp only [bind, Except.bind, notLinear, if_neg isLinear]
    refine congrArg Except.ok ?_
    rw [← String.toList_inj]
    simp [functionText, printed, Wire.display]

namespace IsReadAs

variable {gradient : Gradient} {name : String}

/-- A gradient that was read from a text is written as a function of its name. -/
theorem exists_text
    (isReadAs : IsReadAs gradient name) :
    ∃ chars written, gradient.angleText = .ok (String.ofList chars) ∧
      IsAngleText chars ∧
      written.length = gradient.stops.length ∧ written ≠ [] ∧
      gradient.text = .ok (functionText name
        (if name = "linear" then chars ++ behindAngle written
        else printed written)) := by
  obtain ⟨written, isLength, areTexts⟩ := exists_mapM_text isReadAs.areRead
  obtain ⟨chars, isAngle, isText⟩ := exists_angleText
    (isReadAs.hasAngle.imp_right fun isFloat => isFloat.2)
  have hasStop : written ≠ [] := by
    intro isEmpty
    rw [isEmpty, List.length_nil] at isLength
    exact isReadAs.hasStop (List.length_eq_zero_iff.mp isLength.symm)
  exact ⟨chars, written, isAngle, isText, isLength, hasStop,
    text_eq isReadAs.hasType isAngle areTexts⟩

theorem exists_plain
    (isReadAs : IsReadAs gradient name)
    (notDotted : gradient.hasDottedType = false) :
    ∃ type, (name, type) ∈ plainTypes := by
  rcases isReadAs.hasName with isPlain | isDotted
  · obtain ⟨⟨_, type⟩, isListed, rfl⟩ := List.mem_map.mp isPlain
    exact ⟨type, isListed⟩
  · rw [hasDottedType, isReadAs.hasType] at notDotted
    cases notDotted.symm.trans (List.contains_iff_mem.mpr isDotted)

end IsReadAs

/--
A gradient whose type has lost its dot is written as a text that is no gradient.
-/
theorem exists_text_of_hasDottedType
    {raw : String}
    {gradient : Gradient}
    (isRead : parse raw = .ok (some gradient))
    (hasDotted : gradient.hasDottedType = true) :
    ∃ text, gradient.text = .ok text ∧ parse text = .ok none := by
  obtain ⟨name, isReadAs⟩ := exists_isReadAs isRead
  obtain ⟨_, _, _, _, _, _, isWritten⟩ := isReadAs.exists_text
  rw [hasDottedType, isReadAs.hasType] at hasDotted
  exact ⟨_, isWritten,
    parse_functionText_dotted (List.contains_iff_mem.mp hasDotted) _⟩

/-- The gradient in a text, if there is one. -/
def gradient? (raw : String) : Option Gradient :=
  match parse raw with
  | .ok found => found
  | .error _ => none

theorem parse_of_gradient?
    {raw : String}
    {gradient : Gradient}
    (isRead : gradient? raw = some gradient) :
    parse raw = .ok (some gradient) := by
  unfold gradient? at isRead
  split at isRead
  · rename_i found isFound
    rw [isFound, isRead]
  · cases isRead

/--
Whether a gradient in a text has another angle when it is
written and read again.
-/
def changesAngle (raw : String) : Bool :=
  (gradient? raw).any fun gradient =>
    match gradient.text with
    | .ok text =>
        (gradient? text).any fun again => !Wire.same again.angle gradient.angle
    | .error _ => false

theorem exists_of_changesAngle
    {raw : String}
    (isChanged : changesAngle raw = true) :
    ∃ gradient text again, parse raw = .ok (some gradient) ∧
      gradient.text = .ok text ∧
      parse text = .ok (some again) ∧
        Wire.same again.angle gradient.angle = false := by
  obtain ⟨gradient, isRead, isChanged⟩ := (Option.any_eq_true _ _).mp isChanged
  split at isChanged
  · rename_i text isText
    obtain ⟨again, isAgain, isChanged⟩ := (Option.any_eq_true _ _).mp isChanged
    exact ⟨gradient, text, again, parse_of_gradient? isRead, isText,
      parse_of_gradient? isAgain, by simpa using isChanged⟩
  · cases isChanged

/--
A gradient that was read from a text is written, and the written text is read as
a gradient of the same type with as many stops, unless the name of the type has
lost its dot.  A gradient that is not linear has no angle before and after.  An
angle that is written without an exponent comes back as it is when it is whole,
and otherwise as the double nearest to its six digits, to which no other six are
nearer.  So the angle is the same exactly when six digits denote it.
-/
theorem text_reads_back
    {raw : String}
    {gradient : Gradient}
    (isRead : parse raw = .ok (some gradient))
    (notDotted : gradient.hasDottedType = false) :
    ∃ text again, gradient.text = .ok text ∧ parse text = .ok (some again) ∧
      again.type = gradient.type ∧
      again.stops.length = gradient.stops.length ∧
      (gradient.isLinear = false → gradient.angle = .null ∧ again.angle = .null) ∧
      ∀ angle : Float, gradient.angle = .float angle →
        IsPlainInSix angle → size angle < 1000000 →
          ∃ number, again.angle = .float number ∧
            IsReread angle number ∧
            IsNearestInSix angle (sixDigits angle).number ∧
            (Wire.same again.angle gradient.angle = true ↔ HasSixDigits angle) := by
  obtain ⟨name, isReadAs⟩ := exists_isReadAs isRead
  obtain ⟨chars, written, isAngle, isText, isLength, hasStop, isWritten⟩ :=
    isReadAs.exists_text
  obtain ⟨type, isPlain⟩ := isReadAs.exists_plain notDotted
  by_cases isLinear : name = "linear"
  · subst isLinear
    rw [if_pos rfl] at isWritten
    obtain ⟨again, isAgain, againType, againLength, againAngle⟩ :=
      exists_parse_linear isText hasStop
    refine ⟨_, again, isWritten, isAgain, againType.trans isReadAs.hasType.symm,
      againLength.trans isLength, fun notLinear => ?_,
      fun angle isFloat isPlainAngle isBelow => ?_⟩
    · rw [isLinear, isReadAs.hasType] at notLinear
      cases notLinear
    · obtain ⟨numeral, isNumeral, isReread⟩ :=
        exists_angleText_of_lt isFloat isPlainAngle isBelow
      rw [isAngle] at isNumeral
      have isForm :=
        againAngle numeral (String.ofList_injective (Except.ok.inj isNumeral))
      refine ⟨numeral.value, isForm, isReread,
        Number.isNearestInSix_sixDigits isPlainAngle.isFinite, ?_⟩
      rw [isForm, isFloat]
      exact isReread.beq_iff_of_lt isPlainAngle isBelow
  · rw [if_neg isLinear] at isWritten
    obtain ⟨again, isAgain, againType, againLength, againAngle⟩ :=
      exists_parse_other isPlain isLinear hasStop
    have noAngle : gradient.angle = .null :=
      isReadAs.hasAngle.resolve_right fun isFloat => isLinear isFloat.1
    refine ⟨_, again, isWritten, isAgain, againType.trans isReadAs.hasType.symm,
      againLength.trans isLength, fun _ => ⟨noAngle, againAngle⟩,
      fun angle isFloat => ?_⟩
    cases noAngle.symm.trans isFloat

/-- Whether a gradient is at an angle. -/
def isAt (gradient : Gradient) (angle : Float) : Bool :=
  match gradient.angle with
  | .float found => decide (found = angle)
  | _ => false

theorem angle_of_isAt
    {gradient : Gradient}
    {angle : Float}
    (hasAngle : gradient.isAt angle = true) :
    gradient.angle = .float angle := by
  unfold isAt at hasAngle
  split at hasAngle
  · rename_i found isFloat
    rw [isFloat, of_decide_eq_true hasAngle]
  · cases hasAngle

/--
The angle of a part of a turn has a point, and comes back with its three digits.
-/
theorem text_reads_back_of_part_of_turn :
    ∃ gradient text again,
      parse "linear-gradient(0.0625turn, red, blue)" = .ok (some gradient) ∧
        gradient.angle = .float 22.5 ∧
        gradient.text = .ok text ∧ parse text = .ok (some again) ∧
        again.type = gradient.type ∧ again.stops.length = gradient.stops.length ∧
        again.angle = .float 22.5 ∧
          Wire.same again.angle gradient.angle = true := by
  have isChecked : (gradient? "linear-gradient(0.0625turn, red, blue)").any
      (fun gradient => !gradient.hasDottedType && gradient.isAt 22.5) = true := by
    decide +kernel
  obtain ⟨gradient, isRead, isChecked⟩ := (Option.any_eq_true _ _).mp isChecked
  rw [Bool.and_eq_true, Bool.not_eq_true'] at isChecked
  obtain ⟨notDotted, isChecked⟩ := isChecked
  have isParsed := parse_of_gradient? isRead
  have isFloat := angle_of_isAt isChecked
  have hasSix : HasSixDigits 22.5 :=
    ⟨false, ⟨225, -1⟩, by decide, by decide +kernel⟩
  obtain ⟨text, again, isText, isAgain, againType, againLength, _, againAngle⟩ :=
    text_reads_back isParsed notDotted
  obtain ⟨number, isNumber, isReread, _, isSame⟩ :=
    againAngle 22.5 isFloat (by decide +kernel) (by decide +kernel)
  have isValue : number = 22.5 :=
    (isReread.ofFraction (by decide +kernel)).trans (by decide +kernel)
  exact ⟨gradient, text, again, isParsed, isFloat, isText, isAgain, againType,
    againLength, isValue ▸ isNumber, isSame.mpr hasSix⟩

/--
Six digits are not enough for every angle.  A linear gradient without an angle
comes back with one, one whose angle needs an exponent comes back without, and
one with a dot on a capital i does not come back.
-/
theorem text_changes_angle :
    (∀ raw ∈
      ["linear-gradient(0.1234567deg, red, blue)", "linear-gradient(red, blue)",
      "linear-gradient(1000000deg, red, blue)"],
      ∃ gradient text again, parse raw = .ok (some gradient) ∧
        gradient.text = .ok text ∧
        parse text = .ok (some again) ∧
          Wire.same again.angle gradient.angle = false) ∧
    ∃ gradient text, parse "L\u0130NEAR-gradient(90deg, red, blue)" =
      .ok (some gradient) ∧
      gradient.text = .ok text ∧ parse text = .ok none := by
  have areChanged : ∀ raw ∈ ["linear-gradient(0.1234567deg, red, blue)",
      "linear-gradient(red, blue)", "linear-gradient(1000000deg, red, blue)"],
      changesAngle raw = true := by
    decide +kernel
  have isDotted :
      (gradient? "L\u0130NEAR-gradient(90deg, red, blue)").any hasDottedType =
        true := by
    decide +kernel
  refine ⟨fun raw isListed => exists_of_changesAngle (areChanged raw isListed), ?_⟩
  obtain ⟨gradient, isRead, isDotted⟩ := (Option.any_eq_true _ _).mp isDotted
  have isParsed := parse_of_gradient? isRead
  obtain ⟨text, isText⟩ := exists_text_of_hasDottedType isParsed isDotted
  exact ⟨gradient, text, isParsed, isText⟩

end DesignTokens.Gradient
