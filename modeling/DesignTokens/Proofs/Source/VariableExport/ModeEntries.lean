import DesignTokens.Proofs.Registry.NativeDetection
import DesignTokens.Proofs.Source.VariableExport
import Mathlib.Data.List.Forall2

namespace DesignTokens

/-!
# Entries of modes

The entries of a mode are, in order, one for each variable of the collection
that has a value in the mode, where a value of nothing counts for the variables
that count as texts and for no others.
-/

/-- A list of readings that succeeds has one result for each item, in order. -/
theorem forall₂_of_mapM
    {α β ε : Type}
    {items : List α}
    {read : α → Except ε β}
    {results : List β}
    (succeeded : items.mapM read = .ok results) :
    List.Forall₂ (fun item result => read item = .ok result) items results := by
  induction items generalizing results with
  | nil =>
      obtain rfl := pure_eq_ok_iff.mp succeeded
      exact .nil
  | cons first rest inductionHypothesis =>
      rw [List.mapM_cons] at succeeded
      obtain ⟨result, isRead, afterFirst⟩ := bind_eq_ok_iff.mp succeeded
      obtain ⟨restResults, areRead, joined⟩ := bind_eq_ok_iff.mp afterFirst
      obtain rfl := pure_eq_ok_iff.mp joined
      exact .cons isRead (inductionHypothesis areRead)

namespace VariableExport

/-- Whether a variable counts as a text, by its declared type and its scopes. -/
def Variable.isPlainText (subject : Variable) : Bool :=
  match subject.scopes with
  | .ok scopes => (subject.context scopes).isPlainText
  | .error _ => false

/--
Whether a variable has a token in a mode: it has a value there, or
nothing and is a text.
-/
def Variable.contributes (subject : Variable) (mode : Mode) : Bool :=
  match valueIn? subject mode with
  | .ok (some .null) => subject.isPlainText
  | .ok (some _) => true
  | _ => false

/--
The entry of a variable in a mode: its path and how its value in
the mode is read.
-/
def IsEntry
    (registry : Registry)
    (known : List Variable)
    (mode : Mode)
    (subject : Variable)
    (entry : TokenPath × Token) : Prop :=
  entry.1 = subject.path ∧
    ∃ value, valueIn? subject mode = .ok (some value) ∧
      readValue registry known subject value = .ok (.token entry.2)

/-! One value. -/

section Values

variable {known : List Variable} {subject : Variable} {value : Wire}
  {outcome : Outcome}

/-- An alias is read as a token. -/
theorem isToken_of_alias
    (valueIsAlias : isAlias value = true)
    (isRead : readValue Registry.standard known subject value = .ok outcome) :
    ∃ token, outcome = .token token := by
  unfold readValue at isRead
  obtain ⟨_, _, afterScopes⟩ := bind_eq_ok_iff.mp isRead
  obtain ⟨_, _, afterTag⟩ := bind_eq_ok_iff.mp afterScopes
  obtain ⟨_, _, afterExtensions⟩ := bind_eq_ok_iff.mp afterTag
  simp only [valueIsAlias, if_true] at afterExtensions
  obtain ⟨_, _, isToken⟩ := bind_eq_ok_iff.mp afterExtensions
  exact ⟨_, (pure_eq_ok_iff.mp isToken).symm⟩

/--
Any other value is read by a handler; what that cannot read is a token
unless it is nothing.
-/
theorem exists_handler_of_readValue
    (noAlias : isAlias value = false)
    (isRead : readValue Registry.standard known subject value = .ok outcome) :
    ∃ handler ∈ Handler.nativeHandlers,
      (handler.tag = "string" ↔ subject.isPlainText = true) ∧
      ∃ value?, handler.parseNative value = .ok value? ∧
        ((∃ token, outcome = .token token) ↔
          value ≠ .null ∨ value?.isSome = true) := by
  unfold readValue at isRead
  obtain ⟨scopes, areScopes, afterScopes⟩ := bind_eq_ok_iff.mp isRead
  obtain ⟨tag, isDetected, afterTag⟩ := bind_eq_ok_iff.mp afterScopes
  obtain ⟨extensions, _, afterExtensions⟩ := bind_eq_ok_iff.mp afterTag
  simp only [noAlias, Bool.false_eq_true, if_false] at afterExtensions
  obtain ⟨handler, isHandler, afterHandler⟩ := bind_eq_ok_iff.mp afterExtensions
  obtain ⟨value?, isValue, afterValue⟩ := bind_eq_ok_iff.mp afterHandler
  have detected := lift_eq_ok_iff.mp isDetected
  obtain ⟨isNative, rfl⟩ := Registry.native_of_get_detected detected isHandler
  refine ⟨handler, isNative, ?_, value?, lift_eq_ok_iff.mp isValue, ?_⟩
  · rw [Registry.detectNative_eq_string_iff detected, Variable.isPlainText,
      lift_eq_ok_iff.mp areScopes]
  · cases value? with
    | some read =>
        obtain rfl := pure_eq_ok_iff.mp afterValue
        exact iff_of_true ⟨_, rfl⟩ (.inr rfl)
    | none =>
        simp only [Handler.not_composite_of_native handler isNative] at afterValue
        split at afterValue
        · obtain rfl := pure_eq_ok_iff.mp afterValue
          simp
        · rename_i isThere
          obtain rfl := pure_eq_ok_iff.mp afterValue
          exact iff_of_true ⟨_, rfl⟩ (.inl isThere)

/-- A value is read as a token unless it is nothing and the variable no text. -/
theorem isToken_iff_of_readValue
    (isRead : readValue Registry.standard known subject value = .ok outcome) :
    (∃ token, outcome = .token token) ↔
      value ≠ .null ∨ subject.isPlainText = true := by
  cases valueIsAlias : isAlias value with
  | true =>
      refine iff_of_true (isToken_of_alias valueIsAlias isRead) (.inl ?_)
      rintro rfl
      cases valueIsAlias
  | false =>
      obtain ⟨handler, isNative, isTextIff, value?, isValue, isTokenIff⟩ :=
        exists_handler_of_readValue valueIsAlias isRead
      rw [isTokenIff]
      by_cases isNothing : value = .null
      · subst isNothing
        rw [Handler.parseNative_null isNative] at isValue
        obtain rfl := Except.ok.inj isValue
        simp [← isTextIff]
      · simp [isNothing]

/-- A variable with a value in a mode has its entry there, or none. -/
theorem forall₂_entriesOf_single
    {mode : Mode}
    (isValue : valueIn? subject mode = .ok (some value))
    (isRead : readValue Registry.standard known subject value = .ok outcome) :
    List.Forall₂ (IsEntry Registry.standard known mode)
      ([subject].filter fun subject => subject.contributes mode)
      (entriesOf [(subject, outcome)]) := by
  have contributesIff : subject.contributes mode = true ↔
      ∃ token, outcome = .token token := by
    rw [isToken_iff_of_readValue isRead, Variable.contributes, isValue]
    cases value <;> simp
  cases outcome with
  | token token =>
      have contributes := contributesIff.mpr ⟨token, rfl⟩
      rw [List.filter_singleton, contributes, cond_true]
      exact .cons ⟨rfl, value, isValue, isRead⟩ .nil
  | unreadable tag =>
      have silent : subject.contributes mode = false := by
        rw [← Bool.not_eq_true, contributesIff]
        simp
      rw [List.filter_singleton, silent, cond_false]
      exact .nil

end Values

/-! All values of a mode. -/

theorem entriesOf_append
    (first second : List (Variable × Outcome)) :
    entriesOf (first ++ second) = entriesOf first ++ entriesOf second :=
  List.filterMap_append

/--
The entries of a mode are those of the variables that contribute to
it, one for each.
-/
theorem forall₂_entriesOf_outcomes
    {known subjects : List Variable}
    {mode : Mode}
    {found : List (Variable × Outcome)}
    (areFound : outcomes Registry.standard known subjects mode = .ok found) :
    List.Forall₂ (IsEntry Registry.standard known mode)
      (subjects.filter fun subject => subject.contributes mode)
      (entriesOf found) := by
  -- Values are found from the first variable to the last, so the last one is split
  -- off.
  induction subjects using List.reverseRecOn generalizing found with
  | nil =>
      obtain rfl := pure_eq_ok_iff.mp areFound
      exact .nil
  | append_singleton earlier last inductionHypothesis =>
      rw [outcomes, List.foldlM_append] at areFound
      obtain ⟨before, areBefore, step⟩ := bind_eq_ok_iff.mp areFound
      have beforeEntries := inductionHypothesis areBefore
      rw [List.foldlM_cons] at step
      obtain ⟨after, isAfter, isFound⟩ := bind_eq_ok_iff.mp step
      obtain rfl := pure_eq_ok_iff.mp isFound
      obtain ⟨value?, isValue, afterValue⟩ := bind_eq_ok_iff.mp isAfter
      have isLooked := lift_eq_ok_iff.mp isValue
      rw [List.filter_append]
      cases value? with
      | none =>
          obtain rfl := pure_eq_ok_iff.mp afterValue
          have silent : last.contributes mode = false :=
            by rw [Variable.contributes, isLooked]
          simpa [silent] using beforeEntries
      | some value =>
          obtain ⟨outcome, isRead, isNext⟩ := bind_eq_ok_iff.mp afterValue
          obtain rfl := pure_eq_ok_iff.mp isNext
          rw [entriesOf_append]
          exact List.rel_append beforeEntries
            (forall₂_entriesOf_single isLooked isRead)

/-! Modes of one name. -/

/-- Under a name stand the entries of all modes of that name, in order. -/
theorem lookup?_byMode
    {found : List (Mode × Entries)}
    {name : String} :
    Wire.lookup? name (byMode found) =
      if found.any (fun one => one.1.name == name) then
        some ((found.filter fun one => one.1.name == name).flatMap Prod.snd)
      else none := by
  induction found using List.reverseRecOn with
  | nil => rfl
  | append_singleton earlier last inductionHypothesis =>
      have splitLast :
          byMode (earlier ++ [last]) =
            Wire.insert last.1.name
              (((Wire.lookup? last.1.name (byMode earlier)).getD []) ++ last.2)
              (byMode earlier) := by
        rw [byMode, List.foldl_append]
        rfl
      rw [splitLast, Wire.lookup?_insert]
      by_cases isName : last.1.name = name
      · subst isName
        rw [if_pos rfl, inductionHypothesis]
        by_cases isNew : earlier.any (fun one => one.1.name == last.1.name) = true
        · simp [isNew]
        · have noneEarlier : earlier.filter (fun one => one.1.name == last.1.name) =
              [] := by
            simpa [List.filter_eq_nil_iff] using isNew
          simp [isNew, noneEarlier]
      · have sameAny : (earlier ++ [last]).any (fun one => one.1.name == name) =
            earlier.any (fun one => one.1.name == name) := by
          simp [isName]
        have sameModes :
            (earlier ++ [last]).filter (fun one => one.1.name == name) =
              earlier.filter (fun one => one.1.name == name) := by
          simp [isName]
        rw [if_neg (Ne.symm isName), inductionHypothesis, sameAny, sameModes]

/--
What a collection hands on to be placed, mode by mode.  In each mode that can be
used it is, in the order of the variables, one entry for each variable that
contributes to the mode.  Modes of one name hand theirs on together.
-/
structure Reading.Complete (known : List Variable) (reading : Reading) : Prop where
  modes :
    reading.listed.modes = .ok reading.modes
  entries :
    List.Forall₂
      (fun mode one => one.1 = mode ∧
        List.Forall₂ (IsEntry Registry.standard known mode)
          ((members known reading.listed).filter fun subject =>
            subject.contributes mode)
          (entriesOf one.2))
      reading.modes reading.found
  named : ∀ mode ∈ reading.modes,
    Wire.lookup? mode.name reading.entries =
      some ((reading.found.filter fun one => one.1.name == mode.name).flatMap
        fun one => entriesOf one.2)

theorem complete_of_readListed
    {known : List Variable}
    {includeHidden : Bool}
    {item : String × Wire}
    {reading : Reading}
    (isRead : readListed Registry.standard known includeHidden item =
      .ok (.read reading)) :
    reading.Complete known := by
  obtain ⟨_, areModes, areFound⟩ := reading_of_readListed isRead
  have entries :
      List.Forall₂
        (fun mode one =>
          one.1 = mode ∧
            List.Forall₂ (IsEntry Registry.standard known mode)
              ((members known reading.listed).filter fun subject =>
                subject.contributes mode)
              (entriesOf one.2))
        reading.modes reading.found := by
    refine (forall₂_of_mapM areFound).imp fun mode one isOne => ?_
    obtain ⟨found, areOutcomes, isPair⟩ := bind_eq_ok_iff.mp isOne
    obtain rfl := pure_eq_ok_iff.mp isPair
    exact ⟨rfl, forall₂_entriesOf_outcomes areOutcomes⟩
  have sameModes : reading.found.map Prod.fst = reading.modes.map id := by
    refine map_of_mapM areFound fun mode one isOne => ?_
    obtain ⟨_, _, isPair⟩ := bind_eq_ok_iff.mp isOne
    obtain rfl := pure_eq_ok_iff.mp isPair
    rfl
  refine ⟨areModes, entries, fun mode isMode => ?_⟩
  rw [List.map_id] at sameModes
  obtain ⟨one, isFound, rfl⟩ := List.mem_map.mp (sameModes ▸ isMode)
  have isThere :
      reading.found.any (fun other => other.1.name == one.1.name) = true :=
    List.any_eq_true.mpr ⟨one, isFound, beq_self_eq_true _⟩
  rw [Reading.entries, lookup?_byMode]
  simp [List.any_map, List.filter_map, List.flatMap_map, Function.comp_def, isThere]

/--
The collections of a parsed export are built from what the variables of listed
collections contribute.  Of a variable that has a value in a mode there is
exactly one entry; of one that has nothing there, only if it counts as a text.
-/
theorem entries_of_parse
    {source given : Wire}
    {theme : Theme}
    (isParsed : parse Registry.standard source given = .ok theme) :
    ∃ readings : List Reading,
      List.Forall₂ (fun reading collection => reading.collection = .ok collection)
          readings theme.collections ∧
        ∀ reading ∈ readings,
          reading.listed ∈ namedCollections source ∧
            reading.Complete (knownVariables source) := by
  obtain ⟨known, readings, areKnown, areBuilt, areRead⟩ :=
    exists_readings_of_parse isParsed
  obtain ⟨_, rfl⟩ := variablesOf_eq_ok_iff.mp areKnown
  refine ⟨readings, ?_, fun reading isReading => ?_⟩
  · exact (forall₂_of_mapM areBuilt).imp fun _ _ isBuilt =>
      lift_eq_ok_iff.mp isBuilt
  · obtain ⟨includeHidden, item, isItem, isListed⟩ := areRead reading isReading
    exact ⟨List.mem_filterMap.mpr ⟨item, isItem,
      (reading_of_readListed isListed).1⟩, complete_of_readListed isListed⟩

/-- The only mode of the sample export. -/
def light : Mode :=
  ⟨.str "1:0", "Light"⟩

/-- A variable of a type with a value in the mode. -/
def variableOf (name type : String) (value : Wire) : Variable :=
  ⟨.str name, name,
    [ ("name", .str name), ("resolvedType", .str type),
      ("variableCollectionId", .str "main"),
      ("valuesByMode", .obj [("1:0", value)]) ]⟩

/-- A text without a value, a number without one, and a number with one. -/
def partialVariables : List Variable :=
  [variableOf "label" "STRING" .null, variableOf "gap" "FLOAT" .null,
    variableOf "size" "FLOAT" (.int 4)]

/-- An export of these variables. -/
def partialExport : Wire :=
  .obj
    [ ("variables",
      .obj (partialVariables.map fun subject =>
        (subject.name, .obj subject.members))), ( "variableCollections",
        .obj
          [ ( "main",
              .obj
                [ ("name", .str "Main"),
                  ("modes",
                    .list
                      [.obj [("modeId", light.id),
                        ("name", .str light.name)]]) ] ) ] ) ]

theorem knownVariables_partialExport :
    knownVariables partialExport = partialVariables :=
  rfl

theorem exists_parse_partialExport :
    ∃ theme, parse Registry.standard partialExport .null = .ok theme ∧
      theme.collections.length = 1 ∧
      theme.walk.map
        (fun located => (located.path, located.token.value.encode.display)) =
        [(["label"], "None"), (["size"], "4.0")] := by
  have shown :
      (parse Registry.standard partialExport .null).toOption.map
          (fun theme =>
            (theme.collections.length,
              theme.walk.map
                (fun located =>
                  (located.path, located.token.value.encode.display)))) =
        some (1, [(["label"], "None"), (["size"], "4.0")]) := by
    rw [Registry.standard_eq]
    decide +kernel
  obtain ⟨theme, isThere, areShown⟩ := Option.map_eq_some_iff.mp shown
  obtain ⟨oneCollection, areTokens⟩ := Prod.mk.inj areShown
  exact ⟨theme, eq_ok_of_toOption isThere, oneCollection, areTokens⟩

/--
What the sample export is built from: the text and the size contribute,
the gap does not.
-/
theorem entries_of_parse_partialExport :
    ∃ theme, parse Registry.standard partialExport .null = .ok theme ∧
      ∃ (reading : Reading) (collection : Collection),
        theme.collections = [collection] ∧ reading.collection = .ok collection ∧
        reading.Complete partialVariables ∧
        partialVariables.map (fun subject => subject.contributes light) =
          [true, false, true] := by
  obtain ⟨theme, isParsed, oneCollection, _⟩ := exists_parse_partialExport
  obtain ⟨readings, areBuilt, areComplete⟩ := entries_of_parse isParsed
  obtain ⟨collection, isOnly⟩ := List.length_eq_one_iff.mp oneCollection
  rw [isOnly] at areBuilt
  obtain ⟨reading, _, isBuilt, areNone, rfl⟩ :=
    List.forall₂_cons_right_iff.mp areBuilt
  exact ⟨theme, isParsed, reading, collection, isOnly, isBuilt,
    (areComplete reading List.mem_cons_self).2, by decide +kernel⟩

/--
A text that has nothing in the only mode has a token all the same, and no
other variable does.
-/
theorem nothing_read_as_text :
    ∃ theme, parse Registry.standard partialExport .null = .ok theme ∧
      ∃ located ∈ theme.walk, located.token.value.encode.display = "None" ∧
        (∃ subject ∈ knownVariables partialExport, subject.path = located.path) ∧
        ∀ subject ∈ knownVariables partialExport, subject.path = located.path →
          valueIn? subject light = .ok (some .null) := by
  obtain ⟨theme, isParsed, _, areTokens⟩ := exists_parse_partialExport
  have isListed :
      (["label"], "None") ∈
        theme.walk.map
          (fun located => (located.path, located.token.value.encode.display)) := by
    simp [areTokens]
  obtain ⟨located, isLocated, isLabel⟩ := List.mem_map.mp isListed
  obtain ⟨isPath, isNone⟩ := Prod.mk.inj isLabel
  have labelPath : (variableOf "label" "STRING" .null).path = ["label"] :=
    by decide +kernel
  have otherPaths :
      ∀ subject ∈ partialVariables.tail, subject.path ≠ ["label"] := by
    decide +kernel
  rw [knownVariables_partialExport]
  refine ⟨theme, isParsed, located, isLocated, isNone, ?_, ?_⟩
  · exact ⟨variableOf "label" "STRING" .null, List.mem_cons_self,
      labelPath.trans isPath.symm⟩
  · intro subject isSubject samePath
    rw [isPath] at samePath
    rcases List.mem_cons.mp isSubject with rfl | isOther
    · rfl
    · exact absurd samePath (otherPaths subject isOther)

end VariableExport

end DesignTokens
