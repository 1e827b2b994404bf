import DesignTokens.Proofs.Registry.Shapes
import DesignTokens.Proofs.Theme.Building
import DesignTokens.Source.VariableExport

namespace DesignTokens.VariableExport

/-!
# What parsed variable exports hold

Every token of a parsed export is how a value of one of its variables is read,
and stands at the path that the name of the variable gives.  Modes of one name
share their tokens, so the modes of a collection have distinct names.
-/

/-- The variables that a source lists. -/
def variablesOf (source : Wire) : Except Fault (List Variable) :=
  listedVariables ((table? "variables" (bodyOf source.members)).getD [])

/-- A variable has a value in some mode. -/
def Variable.Holds (subject : Variable) (value : Wire) : Prop :=
  ∃ values mode, subject.getD "valuesByMode" .null = .obj values ∧
    (mode, value) ∈ values

/-- A token and its path are how a value of one of the variables is read. -/
def IsReading
    (registry : Registry)
    (known : List Variable)
    (path : TokenPath)
    (token : Token) : Prop :=
  ∃ subject ∈ known, subject.path = path ∧
    ∃ value, subject.Holds value ∧
      readValue registry known subject value = .ok (.token token)

/-- What is looked up in a mode is a value of the variable. -/
theorem holds_of_valueIn?
    {subject : Variable}
    {mode : Mode}
    {value : Wire}
    (isValue : valueIn? subject mode = .ok (some value)) :
    subject.Holds value := by
  unfold valueIn? at isValue
  split at isValue
  · rename_i values areValues
    split at isValue
    · rename_i id _
      exact ⟨values, id, areValues, mem_of_lookup? (Except.ok.inj isValue)⟩
    · split at isValue
      · cases isValue
      · cases isValue
  · cases isValue

/-- Every outcome is that of reading a value of one of the given variables. -/
def AreOutcomes (registry : Registry) (known subjects : List Variable)
    (found : List (Variable × Outcome)) : Prop :=
  ∀ one ∈ found, one.1 ∈ subjects ∧
    ∃ value, one.1.Holds value ∧ readValue registry known one.1 value = .ok one.2

/-- The outcomes of some variables in a mode are those of reading their values. -/
theorem areOutcomes_outcomes
    {registry : Registry}
    {known subjects : List Variable}
    {mode : Mode}
    {found : List (Variable × Outcome)}
    (areFound : outcomes registry known subjects mode = .ok found) :
    AreOutcomes registry known subjects found := by
  have noneYet : AreOutcomes registry known subjects [] :=
    fun _ isMember => by cases isMember
  refine holds_of_foldlM_of_mem ?_ noneYet areFound
  intro subject isSubject before next step each
  obtain ⟨value?, isValue, afterValue⟩ := bind_eq_ok_iff.mp step
  cases value? with
  | none =>
      obtain rfl := pure_eq_ok_iff.mp afterValue
      exact each
  | some value =>
      obtain ⟨outcome, isOutcome, isNext⟩ := bind_eq_ok_iff.mp afterValue
      obtain rfl := pure_eq_ok_iff.mp isNext
      intro one isOne
      rcases List.mem_append.mp isOne with wasThere | isNew
      · exact each one wasThere
      · obtain rfl := List.mem_singleton.mp isNew
        exact ⟨isSubject, value, holds_of_valueIn? (lift_eq_ok_iff.mp isValue),
          isOutcome⟩

/--
A collection that is read has, for each of its modes, the outcomes
of its variables.
-/
theorem reading_of_readListed
    {registry : Registry}
    {known : List Variable}
    {includeHidden : Bool}
    {item : String × Wire}
    {reading : Reading}
    (isRead : readListed registry known includeHidden item = .ok (.read reading)) :
    Listed.ofMember? item.1 item.2 = some reading.listed ∧
      reading.listed.modes = .ok reading.modes ∧
      (reading.modes.mapM fun mode => do
          let found ← outcomes registry known (members known reading.listed) mode
          return (mode, found)) =
        .ok reading.found := by
  unfold readListed at isRead
  split at isRead
  · cases pure_eq_ok_iff.mp isRead
  · rename_i listed isNamed
    obtain ⟨modes, areModes, afterModes⟩ := bind_eq_ok_iff.mp isRead
    simp only at afterModes
    split at afterModes
    · cases pure_eq_ok_iff.mp afterModes
    · split at afterModes
      · cases afterModes
      · split at afterModes
        · cases pure_eq_ok_iff.mp afterModes
        · obtain ⟨found, areFound, isStep⟩ := bind_eq_ok_iff.mp afterModes
          obtain rfl := Step.read.inj (pure_eq_ok_iff.mp isStep)
          exact ⟨isNamed, lift_eq_ok_iff.mp areModes, areFound⟩

theorem nodup_byMode
    (found : List (Mode × Entries)) :
    ((byMode found).map Prod.fst).Nodup := by
  refine List.foldlRecOn
    (motive := fun known : List (String × Entries) => (known.map Prod.fst).Nodup)
    found _ List.nodup_nil ?_
  intro known distinct one _
  exact Wire.nodup_insert distinct _ _

theorem exists_mode_of_mem_byMode
    {found : List (Mode × Entries)} :
    ∀ mode ∈ byMode found, ∀ entry ∈ mode.2, ∃ one ∈ found, entry ∈ one.2 := by
  refine List.foldlRecOn
    (motive := fun known : List (String × Entries) =>
      ∀ mode ∈ known, ∀ entry ∈ mode.2, ∃ one ∈ found, entry ∈ one.2) found _
        (by simp) ?_
  intro known comeFrom one isOne mode isMode entry isEntry
  rcases Wire.mem_of_mem_insert isMode with rfl | wasThere
  · rcases List.mem_append.mp isEntry with isKnown | isAdded
    · cases isListed : Wire.lookup? one.1.name known with
      | none => simp [isListed] at isKnown
      | some entries =>
          rw [isListed] at isKnown
          exact comeFrom _ (mem_of_lookup? isListed) entry isKnown
    · exact ⟨one, isOne, isAdded⟩
  · exact comeFrom mode wasThere entry isEntry

/-- The entries of a collection that is read are readings of the variables. -/
theorem isReading_of_mem_entries
    {registry : Registry}
    {known : List Variable}
    {includeHidden : Bool}
    {item : String × Wire}
    {reading : Reading}
    (isRead : readListed registry known includeHidden item = .ok (.read reading)) :
    ∀ mode ∈ reading.entries,
      ∀ entry ∈ mode.2, IsReading registry known entry.1 entry.2 := by
  intro mode isMode entry isEntry
  obtain ⟨grouped, isGrouped, inGroup⟩ :=
    exists_mode_of_mem_byMode mode isMode entry isEntry
  obtain ⟨one, isOne, rfl⟩ := List.mem_map.mp isGrouped
  obtain ⟨mode, _, isFound⟩ :=
    exists_of_mem_mapM (reading_of_readListed isRead).2.2 isOne
  obtain ⟨found, areOutcomes, isPair⟩ := bind_eq_ok_iff.mp isFound
  obtain rfl := pure_eq_ok_iff.mp isPair
  obtain ⟨⟨subject, outcome⟩, isFound, isPlaced⟩ := List.mem_filterMap.mp inGroup
  obtain ⟨isSubject, value, isHeld, isRead⟩ :=
    areOutcomes_outcomes areOutcomes _ isFound
  cases outcome with
  | unreadable tag => cases isPlaced
  | token result =>
      obtain rfl := Option.some.inj isPlaced
      exact ⟨subject, (List.mem_filter.mp isSubject).1, rfl, value, isHeld, isRead⟩

/--
The collections of a parsed export are those of the collections that are read.
-/
theorem exists_readings_of_parse
    {registry : Registry}
    {source given : Wire}
    {theme : Theme}
    (isParsed : parse registry source given = .ok theme) :
    ∃ (known : List Variable) (readings : List Reading),
      variablesOf source = .ok known ∧
        (readings.mapM fun reading => Failure.lift reading.collection) =
          .ok theme.collections ∧
        ∀ reading ∈ readings, ∃ includeHidden,
          ∃ item ∈ (table? "variableCollections" (bodyOf source.members)).getD [],
            readListed registry known includeHidden item = .ok (.read reading) := by
  unfold parse at isParsed
  obtain ⟨_, _, afterAccept⟩ := bind_eq_ok_iff.mp isParsed
  obtain ⟨options, _, afterOptions⟩ := bind_eq_ok_iff.mp afterAccept
  obtain ⟨readings, areReadings, afterReadings⟩ := bind_eq_ok_iff.mp afterOptions
  obtain ⟨collections, areBuilt, isTheme⟩ := bind_eq_ok_iff.mp afterReadings
  obtain rfl := pure_eq_ok_iff.mp isTheme
  unfold VariableExport.readings at areReadings
  obtain ⟨known, areKnown, afterKnown⟩ := bind_eq_ok_iff.mp areReadings
  obtain ⟨_, _, afterChecks⟩ := bind_eq_ok_iff.mp afterKnown
  obtain ⟨steps, areSteps, isReadings⟩ := bind_eq_ok_iff.mp afterChecks
  obtain rfl := pure_eq_ok_iff.mp isReadings
  refine ⟨known, _, lift_eq_ok_iff.mp areKnown, areBuilt,
    fun reading isReading => ?_⟩
  obtain ⟨step, isStep, isRead⟩ := List.mem_filterMap.mp isReading
  obtain ⟨item, isItem, isListed⟩ := exists_of_mem_mapM areSteps isStep
  cases step with
  | read found =>
      obtain rfl := Option.some.inj isRead
      exact ⟨_, item, isItem, isListed⟩
  | _ => cases isRead

/--
The collections of a parsed export are orderly and hold readings
of its variables.
-/
theorem exists_orderly_of_parse
    {registry : Registry}
    {source given : Wire}
    {theme : Theme}
    (isParsed : parse registry source given = .ok theme) :
    ∃ known, variablesOf source = .ok known ∧
      ∀ collection ∈ theme.collections,
        collection.Orderly (IsReading registry known) := by
  obtain ⟨known, readings, areKnown, areBuilt, areRead⟩ :=
    exists_readings_of_parse isParsed
  refine ⟨known, areKnown, fun collection isCollection => ?_⟩
  obtain ⟨reading, isReading, isBuilt⟩ := exists_of_mem_mapM areBuilt isCollection
  obtain ⟨includeHidden, item, _, isListed⟩ := areRead reading isReading
  have build :
      Collection.build (.str reading.listed.name) (Collection.named reading.entries)
        (.str (reading.listed.defaultMode reading.modes))
        (.str ("Figma collection: " ++ reading.listed.name)) = .ok collection :=
    lift_eq_ok_iff.mp isBuilt
  exact (Collection.orderly_of_build (nodup_byMode _)
    (isReading_of_mem_entries isListed) build).2

/--
A value is read as a reference when it is an alias, and else in the
shape of its type.
-/
theorem shape_of_readValue
    {known : List Variable}
    {subject : Variable}
    {value : Wire}
    {token : Token}
    (isRead : readValue Registry.standard known subject value =
      .ok (.token token)) :
    token.Shaped ∧
      ∀ target, token.value.reference? = some target →
        isAlias value = true ∧ reference known value = .ok target := by
  unfold readValue at isRead
  obtain ⟨scopes, _, afterScopes⟩ := bind_eq_ok_iff.mp isRead
  obtain ⟨tag, isDetected, afterTag⟩ := bind_eq_ok_iff.mp afterScopes
  obtain ⟨extensions, _, afterExtensions⟩ := bind_eq_ok_iff.mp afterTag
  have isKnownTag := Registry.has_of_detectNative (lift_eq_ok_iff.mp isDetected)
  simp only at afterExtensions
  split at afterExtensions
  · rename_i valueIsAlias
    obtain ⟨target, isTarget, isToken⟩ := bind_eq_ok_iff.mp afterExtensions
    obtain rfl := Outcome.token.inj (pure_eq_ok_iff.mp isToken)
    refine ⟨⟨tag, rfl, isKnownTag, .inl rfl⟩, fun other isOther => ?_⟩
    obtain rfl := Option.some.inj isOther
    exact ⟨valueIsAlias, lift_eq_ok_iff.mp isTarget⟩
  · obtain ⟨handler, isHandler, afterHandler⟩ := bind_eq_ok_iff.mp afterExtensions
    obtain ⟨value?, isValue, afterValue⟩ := bind_eq_ok_iff.mp afterHandler
    obtain ⟨sameTag, isBuiltin⟩ := Registry.get_standard_eq_ok isHandler
    obtain rfl := Wire.str.inj sameTag
    cases value? with
    | some found =>
        obtain rfl := Outcome.token.inj (pure_eq_ok_iff.mp afterValue)
        have shaped :=
          Handler.shaped_of_parseNative isBuiltin (lift_eq_ok_iff.mp isValue)
        refine ⟨⟨handler.tag, rfl, isKnownTag, .inr shaped⟩,
          fun target isTarget => ?_⟩
        cases found with
        | reference => exact shaped.elim
        | _ => cases isTarget
    | none =>
        simp only at afterValue
        split at afterValue
        · cases pure_eq_ok_iff.mp afterValue
        · split at afterValue
          · cases pure_eq_ok_iff.mp afterValue
          · obtain rfl := Outcome.token.inj (pure_eq_ok_iff.mp afterValue)
            exact ⟨⟨"string", rfl, Registry.has_string, .inr rfl⟩,
              fun _ isTarget => by cases isTarget⟩

end DesignTokens.VariableExport
