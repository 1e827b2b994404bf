import DesignTokens.Proofs.Registry.Detection
import DesignTokens.Proofs.Theme.Building
import DesignTokens.Source.Stylesheet

namespace DesignTokens.Stylesheet

/-!
# Parsing style sheets without a fault

A style sheet that is let through is parsed when every declared value that does
not refer to another property can be read.  Values that are reached through
references are declared values themselves, so nothing else has to be asked.
-/

open DesignTokens.Text

/-- Reading a value that refers to no other property ends with a fault. -/
def Trips (value : String) : Prop :=
  Color.Overflows value ∨ NoNumeral (trimChars value.toList)

/-- Whether a value is a font weight does not depend on blanks around it. -/
theorem isWeightText_trim_eq_ok_iff
    {value : String}
    {isWeight : Bool} :
    FontWeight.isWeightText (trim value) = .ok isWeight ↔
      FontWeight.isWeightText value = .ok isWeight := by
  have sameChars : trimChars (trim value).toList = trimChars value.toList := by
    rw [trim, String.toList_ofList, trimChars_trimChars]
  unfold FontWeight.isWeightText
  simp only [sameChars]
  split
  · split <;> simp
  · rfl

/--
Whether a value is a font weight can be told unless it is
digit-like and no numeral.
-/
theorem succeeds_isFontWeight_iff
    {name value : String} :
    Succeeds (isFontWeight name (trim value)) ↔
      ¬ NoNumeral (trimChars value.toList) := by
  rw [isFontWeight, succeeds_bind_pure_iff, FontWeight.succeeds_isWeightText_iff,
    trim, String.toList_ofList, trimChars_trimChars]

/-- The type of a value is told unless the value trips. -/
theorem succeeds_typeOf_iff
    {name value : String} :
    Succeeds (typeOf name value) ↔ ¬ Trips value := by
  have colorTold : Succeeds (Color.isColorText (trim value)) ↔
      ¬ Color.Overflows value := by
    rw [Color.succeeds_isColorText_iff, Color.overflows_trim_iff]
  have weightTold := @succeeds_isFontWeight_iff name value
  have trimmed : (trim value).toList = trimChars value.toList := by
    rw [trim, String.toList_ofList]
  rw [Trips, not_or, ← colorTold]
  unfold typeOf
  simp only [succeeds_bind_iff]
  constructor
  · rintro ⟨isColor, colorIs, next⟩
    refine ⟨⟨isColor, colorIs⟩, fun noNumeral => ?_⟩
    -- Every question before that for a font weight is answered with no.
    have digits : ∀ c ∈ (trim value).toList, isDigitLike c = true := by
      rw [trimmed]
      exact fun c => noNumeral.isDigitLike_of_mem
    have noColor : Color.isColorText (trim value) = .ok false := by
      refine Color.isColorText_of_digits ?_
      rw [trim_trim, trimmed]
      exact noNumeral.digitLike
    cases colorIs.symm.trans noColor
    rw [Dimension.hasUnit_of_digits digits, Duration.isExplicit_of_digits digits,
      isFontStack_of_digits digits] at next
    simp only [Bool.false_eq_true, if_false, succeeds_bind_iff] at next
    obtain ⟨isWeight, weightIs, _⟩ := next
    exact weightTold.mp ⟨isWeight, weightIs⟩ noNumeral
  · rintro ⟨⟨isColor, colorIs⟩, numeral⟩
    obtain ⟨isWeight, weightIs⟩ := weightTold.mpr numeral
    refine ⟨isColor, colorIs, ?_⟩
    split
    · exact succeeds_pure "color"
    · split
      · exact succeeds_pure "dimension"
      · split
        · exact succeeds_pure "duration"
        · split
          · exact succeeds_pure "fontFamily"
          · rw [succeeds_bind_iff]
            refine ⟨isWeight, weightIs, ?_⟩
            split
            · exact succeeds_pure "fontWeight"
            · split
              · exact succeeds_pure "number"
              · exact succeeds_pure "string"

theorem isWeightText_of_isFontWeight
    {name value : String}
    (isWeight : isFontWeight name (trim value) = .ok true) :
    FontWeight.isWeightText value = .ok true := by
  obtain ⟨written, isWritten, combined⟩ := bind_eq_ok_iff.mp isWeight
  obtain ⟨rfl, _⟩ := Bool.and_eq_true_iff.mp (pure_eq_ok_iff.mp combined)
  exact isWeightText_trim_eq_ok_iff.mp isWritten

/--
The handlers of the types that a value can look like, and what colors and
weights look like.
-/
inductive LooksLike (name value : String) : Handler → Prop where
  | color : Color.isColorText (trim value) = .ok true →
    LooksLike name value Handler.color
  | dimension : LooksLike name value Handler.dimension
  | duration : LooksLike name value Handler.duration
  | fontFamily : LooksLike name value Handler.fontFamily
  | fontWeight : isFontWeight name (trim value) = .ok true →
    LooksLike name value Handler.fontWeight
  | number : LooksLike name value Handler.number
  | string : LooksLike name value Handler.string

/-- The type of a value is that of a handler that the value looks like. -/
theorem exists_looksLike_of_typeOf
    {name value tag : String}
    (isType : typeOf name value = .ok tag) :
    ∃ handler, LooksLike name value handler ∧ handler.tag = tag := by
  unfold typeOf at isType
  simp only at isType
  obtain ⟨isColor, colorIs, afterColor⟩ := bind_eq_ok_iff.mp isType
  split at afterColor
  · rename_i isTrue
    subst isTrue
    exact ⟨_, .color colorIs, pure_eq_ok_iff.mp afterColor⟩
  · split at afterColor
    · exact ⟨_, .dimension, pure_eq_ok_iff.mp afterColor⟩
    · split at afterColor
      · exact ⟨_, .duration, pure_eq_ok_iff.mp afterColor⟩
      · split at afterColor
        · exact ⟨_, .fontFamily, pure_eq_ok_iff.mp afterColor⟩
        · obtain ⟨isWeight, weightIs, afterWeight⟩ := bind_eq_ok_iff.mp afterColor
          split at afterWeight
          · rename_i isTrue
            subst isTrue
            exact ⟨_, .fontWeight weightIs, pure_eq_ok_iff.mp afterWeight⟩
          · split at afterWeight
            · exact ⟨_, .number, pure_eq_ok_iff.mp afterWeight⟩
            · exact ⟨_, .string, pure_eq_ok_iff.mp afterWeight⟩

namespace LooksLike

/-- A handler that a value looks like is one of this library. -/
theorem isBuiltin
    {name value : String}
    {handler : Handler}
    (looksLike : LooksLike name value handler) :
    handler ∈ Handler.builtins := by
  cases looksLike <;> simp [Handler.builtins]

/-- A handler that a value looks like reads the value, or finds it unreadable. -/
theorem succeeds_parseCompact
    {name value : String}
    {handler : Handler}
    (looksLike : LooksLike name value handler) :
    Succeeds (handler.parseCompact value) := by
  cases looksLike with
  | color isColor =>
      have noOverflow : ¬ Color.Overflows value := by
        rw [← Color.overflows_trim_iff]
        exact Color.succeeds_isColorText_iff.mp ⟨_, isColor⟩
      exact Handler.succeeds_parseCompact_color_iff.mpr noOverflow
  | fontWeight isWeight =>
      exact Handler.succeeds_parseCompact_fontWeight
        (isWeightText_of_isFontWeight isWeight)
  | _ => exact succeeds_ok _

/-- No value looks like keyframes. -/
theorem ne_keyframes
    {name value : String}
    {handler : Handler}
    (looksLike : LooksLike name value handler) :
    handler.tag ≠ Handler.keyframes.tag := by
  cases looksLike <;> decide

end LooksLike

/--
Reading a declaration ends with a fault: its value refers to no
property, and trips.
-/
def Declaration.Trips (declaration : Declaration) : Prop :=
  variableOf? declaration.value = none ∧ Stylesheet.Trips declaration.value

/-- A declaration is read unless it trips. -/
theorem succeeds_read_iff
    {types : List (String × String)}
    {start : String}
    {declaration : Declaration} :
    Succeeds (read Registry.standard types start declaration) ↔
      ¬ declaration.Trips := by
  unfold read Declaration.Trips
  cases isVariable : variableOf? declaration.value with
  | some target => simp
  | none =>
      simp only [true_and, ← @succeeds_typeOf_iff declaration.name,
        succeeds_bind_iff, lift_eq_ok_iff]
      constructor
      · rintro ⟨tag, isType, _⟩
        exact ⟨tag, isType⟩
      · rintro ⟨tag, isType⟩
        obtain ⟨handler, looksLike, rfl⟩ := exists_looksLike_of_typeOf isType
        obtain ⟨read?, isRead⟩ := looksLike.succeeds_parseCompact
        refine ⟨handler.tag, isType, handler,
          Registry.get_standard looksLike.isBuiltin, read?, isRead, ?_⟩
        cases read? <;> exact succeeds_pure _

/-- Following references ends at a given value, or at that of some property. -/
theorem follow_eq_or_mem
    {values : List (String × String)}
    {steps : Nat}
    {passed : List String}
    {value : String} :
    follow values steps passed value = value ∨
      follow values steps passed value ∈ values.map Prod.snd := by
  induction steps generalizing passed value with
  | zero => exact .inl rfl
  | succ steps inductionHypothesis =>
      unfold follow
      split
      · exact .inl rfl
      · rename_i name _
        split
        · exact .inl rfl
        · split
          · rename_i next isNext
            right
            rcases @inductionHypothesis (name :: passed) next with ends | isValue
            · rw [ends]
              exact List.mem_map.mpr ⟨_, mem_of_lookup? isNext, rfl⟩
            · exact isValue
          · exact .inl rfl

/-- The first value of a name is one that is given to it. -/
theorem firstValues_subset
    (named : List (String × String)) :
    firstValues named ⊆ named := by
  refine List.foldlRecOn (motive := (· ⊆ named)) named _ (List.nil_subset _) ?_
  intro known isKnown one isNamed
  split
  · exact isKnown
  · exact List.append_subset.mpr ⟨isKnown, by simpa using isNamed⟩

/-- The types of all names are told when no declaration trips. -/
theorem succeeds_typesByName
    {declarations : List Declaration}
    (clear : ∀ declaration ∈ declarations, ¬ declaration.Trips) :
    Succeeds
      (typesByName (declarations.map (fun one => (one.name, one.value)))) := by
  refine succeeds_mapM_iff.mpr (fun one isFirst => ?_)
  refine succeeds_bind_pure_iff.mpr ?_
  generalize isNamed :
    declarations.map (fun one => (one.name, one.value)) = named at isFirst
  have isDeclared (member : String × String)
      (isMember : member ∈ firstValues named) :
          ∃ declaration ∈ declarations, declaration.value = member.2 := by
    have given := firstValues_subset named isMember
    rw [← isNamed] at given
    obtain ⟨declaration, isDeclaration, rfl⟩ := List.mem_map.mp given
    exact ⟨declaration, isDeclaration, rfl⟩
  unfold followedType
  -- Whatever is reached from a first value is again the value of a declaration.
  obtain ⟨declaration, isDeclaration, isReached⟩ : ∃ declaration ∈ declarations,
      declaration.value =
        follow (firstValues named) (firstValues named).length [one.1] one.2 := by
    rcases @follow_eq_or_mem (firstValues named) (firstValues named).length [one.1]
      one.2 with
      ends | isValue
    · rw [ends]
      exact isDeclared one isFirst
    · obtain ⟨member, isMember, isValue⟩ := List.mem_map.mp isValue
      rw [← isValue]
      exact isDeclared member isMember
  rw [← isReached]
  simp only
  split
  · exact succeeds_ok _
  · rename_i isNoVariable
    refine succeeds_typeOf_iff.mpr (fun trips => ?_)
    exact clear declaration isDeclaration ⟨isNoVariable, trips⟩

/-- Declarations are read unless one of them trips. -/
theorem succeeds_readAll_iff
    {options : Options}
    (startReads : Succeeds options.start)
    {declarations : List Declaration} :
    Succeeds (readAll Registry.standard options declarations) ↔
      ∀ declaration ∈ declarations, ¬ declaration.Trips := by
  have readings (types : List (String × String)) (start : String) :
      Succeeds (declarations.mapM (read Registry.standard types start)) ↔
        ∀ declaration ∈ declarations, ¬ declaration.Trips := by
    rw [succeeds_mapM_iff]
    exact forall₂_congr (fun _ _ => succeeds_read_iff)
  have afterTypes (types : List (String × String)) :
      Succeeds (do
        let start ←
          if declarations.isEmpty then pure "" else Failure.lift options.start
        declarations.mapM (read Registry.standard types start)) ↔
        ∀ declaration ∈ declarations, ¬ declaration.Trips := by
    obtain ⟨start, isStart⟩ :
        Succeeds (Failure.lift options.start : Except Failure String) :=
      succeeds_lift_iff.mpr startReads
    rw [isStart]
    split
    · exact readings types ""
    · exact readings types start
  unfold readAll
  rw [succeeds_bind_iff_and afterTypes, succeeds_lift_iff]
  exact and_iff_right_of_imp succeeds_typesByName

/-- The entries of a scheme can be placed. -/
theorem placeable_entriesOf
    (dark : Bool)
    (readings : List Reading) :
    (entriesOf dark readings).Placeable := by
  intro entry isEntry
  obtain ⟨reading, isKept, rfl⟩ := List.mem_map.mp isEntry
  have isPlaced := (Bool.and_eq_true_iff.mp (List.mem_filter.mp isKept).2).1
  simpa [Reading.isPlaced, Reading.entry] using isPlaced

/-- Every mode is that of a scheme. -/
theorem exists_scheme_of_mem_modesOf
    {options : Options}
    {readings : List Reading}
    {mode : Label × Entries}
    (isMode : mode ∈ modesOf options readings) :
    ∃ dark, mode.2 = entriesOf dark readings := by
  unfold modesOf at isMode
  simp only at isMode
  split at isMode
  · exact ⟨false, by rw [List.mem_singleton.mp isMode]⟩
  · split at isMode
    · exact ⟨true, by rw [List.mem_singleton.mp isMode]⟩
    · rcases List.mem_pair.mp isMode with rfl | rfl
      · exact ⟨false, rfl⟩
      · exact ⟨true, rfl⟩

theorem placeable_modesOf
    {options : Options}
    {readings : List Reading}
    {mode : Label × Entries}
    (isMode : mode ∈ modesOf options readings) :
    mode.2.Placeable := by
  obtain ⟨dark, isScheme⟩ := exists_scheme_of_mem_modesOf isMode
  rw [isScheme]
  exact placeable_entriesOf dark readings

/-- The options of a source that comes without any. -/
def Options.plain : Options :=
  ⟨.str "tokens", .str "default", .null, Kinds.all, .null⟩

/--
Without options, every kind of block is read, and names are taken as they are.
-/
theorem decode_null :
    Options.decode .null = .ok Options.plain :=
  rfl

/--
A style sheet is parsed exactly when nothing speaks against it and none of its
declarations trips.
-/
theorem succeeds_parse_iff
    {css : String} :
    Succeeds (parse Registry.standard (.str css) .null) ↔
      reasons (.str css) = [] ∧
        ∀ declaration ∈ extract Kinds.all css, ¬ declaration.Trips := by
  have startReads : Succeeds Options.plain.start :=
    ⟨"", rfl⟩
  have collectionReads (readings : List Reading) :
      Succeeds (collectionOf Options.plain readings) :=
    Collection.succeeds_build (fun _ => placeable_modesOf) rfl _ _
  have noOptions : optionsOf (.str css) .null = .null := rfl
  rw [← succeeds_readAll_iff startReads, ← @succeeds_accept_iff sourceName]
  unfold parse
  refine succeeds_bind_iff_and (fun _ => ?_)
  simp only [noOptions, decode_null, lift_ok, ok_bind]
  refine succeeds_bind_of_total (fun readings => ?_)
  refine succeeds_bind_pure_iff.mpr ?_
  exact succeeds_lift_iff.mpr (collectionReads readings)

end DesignTokens.Stylesheet
