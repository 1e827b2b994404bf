import DesignTokens.Proofs.Registry.NativeDetection
import DesignTokens.Proofs.Source.VariableExport.Contents

namespace DesignTokens

/-!
# Parsing variable exports without a fault

Entries that are no objects with a name are passed over.  Whatever stands inside
the others is taken for what it should be: an identity for a key, a list of
scopes or of modes for a list, a whole number for a double.  An export that is
let through is parsed when all of these are.
-/

namespace Wire

/-- Whether the parts of a value can be listed. -/
def hasParts : Wire → Bool
  | .list _ => true
  | .str _ => true
  | .obj _ => true
  | _ => false

theorem succeeds_parts_iff
    {value : Wire} :
    Succeeds value.parts ↔ value.hasParts = true := by
  cases value <;> simp [parts, hasParts]

theorem succeeds_getD_iff
    {name : String}
    {value default : Wire} :
    Succeeds (getD name value default) ↔ value.isObject = true := by
  cases value <;> simp [getD, get?, isObject, bind, Except.bind]

/-- A member that should be a list is something else, and not absent. -/
def Unlisted (value : Wire) : Prop :=
  value.isTruthy = true ∧ value.hasParts = false

end Wire

namespace VariableExport

open DesignTokens.Text

namespace Variable

theorem succeeds_partsOf_iff
    {value : Wire} :
    Succeeds (partsOf value) ↔ ¬ value.Unlisted := by
  unfold partsOf Wire.Unlisted
  split
  · rename_i isThere
    simp [Wire.succeeds_parts_iff, isThere]
  · rename_i isAbsent
    simp [isAbsent]

/-- The names on the platforms are no object, and not absent. -/
def HasUnusableCodeSyntax (subject : Variable) : Prop :=
  (subject.getD "codeSyntax" .null).isTruthy = true ∧
    (subject.getD "codeSyntax" .null).isObject = false

theorem succeeds_codeSyntax_iff
    {subject : Variable} :
    Succeeds subject.codeSyntax ↔ ¬ subject.HasUnusableCodeSyntax := by
  unfold codeSyntax HasUnusableCodeSyntax
  simp only
  split
  · rename_i isThere
    rw [succeeds_bind_iff_and
      (fun _ => (succeeds_bind_iff_and fun _ => succeeds_bind_pure_iff))]
    simp [Wire.succeeds_getD_iff, isThere]
  · rename_i isAbsent
    simp [isAbsent]

/-- Reading a value of the variable ends with a fault. -/
inductive Trips (subject : Variable) (value : Wire) : Prop where
  | scopes :
      (subject.getD "scopes" .null).Unlisted →
      subject.Trips value
  | type {scopes : List Wire} :
      subject.scopes = .ok scopes →
      (subject.context scopes).Misleads →
      subject.Trips value
  | codeSyntax :
      subject.HasUnusableCodeSyntax →
      subject.Trips value
  | target :
      isAlias value = true →
      (aliasTarget value).isKey = false →
      subject.Trips value
  | value {scopes : List Wire} {tag : String} :
      isAlias value = false →
      subject.scopes = .ok scopes →
      Registry.standard.detectNative (subject.context scopes) = .ok tag →
      Handler.StumblesNative tag value →
      subject.Trips value

end Variable

theorem succeeds_reference_iff
    {known : List Variable}
    {target : Wire} :
    Succeeds (reference known target) ↔ (aliasTarget target).isKey = true := by
  unfold reference
  simp only
  split
  · rename_i isKey
    split <;> simp [isKey]
  · rename_i noKey
    simp [noKey]

/--
Once its type is detected, a value that is no alias is read unless the
handler stumbles.
-/
theorem exists_reading_of_detected
    {context : NativeContext}
    {tag : String}
    (detected : Registry.standard.detectNative context = .ok tag)
    (value : Wire) :
    ∃ handler, Registry.standard.get (.str tag) = .ok handler ∧
      (Succeeds (handler.parseNative value) ↔
        ¬ Handler.StumblesNative tag value) := by
  obtain ⟨handler, isNative, rfl⟩ := Registry.exists_of_detectNative detected
  have isBuiltin := Handler.nativeHandlers_subset_builtins isNative
  exact ⟨handler, Registry.get_standard isBuiltin,
    Handler.succeeds_parseNative_iff isNative⟩

variable {known : List Variable} {subject : Variable} {value : Wire}

theorem succeeds_readValue_of_detected
    {scopes : List Wire}
    {tag : String}
    {extensions : List (String × Wire)}
    (areScopes : subject.scopes = .ok scopes)
    (detected : Registry.standard.detectNative (subject.context scopes) = .ok tag)
    (areExtensions : subject.extensions scopes = .ok extensions) :
    Succeeds (readValue Registry.standard known subject value) ↔
      if isAlias value then (aliasTarget value).isKey = true
      else ¬ Handler.StumblesNative tag value := by
  obtain ⟨handler, isHandler, reads⟩ := exists_reading_of_detected detected value
  unfold readValue
  simp only [areScopes, detected, areExtensions, lift_ok, ok_bind]
  split
  · rename_i valueIsAlias
    rw [succeeds_bind_pure_iff, succeeds_lift_iff, succeeds_reference_iff]
  · rename_i noAlias
    rw [isHandler, ok_bind, ← reads, ← succeeds_lift_iff]
    refine succeeds_bind_of_total (fun read? => ?_)
    cases read? with
    | some read => exact succeeds_pure _
    | none =>
        simp only
        split
        · exact succeeds_pure _
        · split <;> exact succeeds_pure _

/--
A value is read only where its scopes, its type and its extensions
can be worked out.
-/
theorem exists_steps_of_readValue
    (isRead : Succeeds (readValue Registry.standard known subject value)) :
    ∃ scopes tag extensions,
      subject.scopes = .ok scopes ∧
        Registry.standard.detectNative (subject.context scopes) = .ok tag ∧
        subject.extensions scopes = .ok extensions := by
  unfold readValue at isRead
  obtain ⟨scopes, areScopes, afterScopes⟩ := succeeds_bind_iff.mp isRead
  obtain ⟨tag, detected, afterTag⟩ := succeeds_bind_iff.mp afterScopes
  obtain ⟨extensions, areExtensions, _⟩ := succeeds_bind_iff.mp afterTag
  exact ⟨scopes, tag, extensions, lift_eq_ok_iff.mp areScopes,
    lift_eq_ok_iff.mp detected, lift_eq_ok_iff.mp areExtensions⟩

theorem succeeds_readValue_iff :
    Succeeds (readValue Registry.standard known subject value) ↔
      ¬ subject.Trips value := by
  constructor
  · intro isRead trips
    obtain ⟨scopes, tag, extensions, areScopes, detected, areExtensions⟩ :=
      exists_steps_of_readValue isRead
    rw [succeeds_readValue_of_detected areScopes detected areExtensions] at isRead
    -- Each way to trip takes away one of the steps that were made.
    cases trips with
    | scopes unlisted =>
        exact Variable.succeeds_partsOf_iff.mp ⟨scopes, areScopes⟩ unlisted
    | type areOther misleads =>
        cases areScopes.symm.trans areOther
        exact Registry.succeeds_detectNative_iff.mp ⟨tag, detected⟩ misleads
    | codeSyntax unusable =>
        have isWritten : Succeeds subject.codeSyntax :=
          succeeds_bind_pure_iff.mp ⟨extensions, areExtensions⟩
        exact Variable.succeeds_codeSyntax_iff.mp isWritten unusable
    | target valueIsAlias noKey =>
        rw [if_pos valueIsAlias, noKey] at isRead
        cases isRead
    | value noAlias areOther isOther stumbles =>
        cases areScopes.symm.trans areOther
        cases detected.symm.trans isOther
        rw [noAlias] at isRead
        exact isRead stumbles
  · intro clear
    obtain ⟨scopes, areScopes⟩ : Succeeds subject.scopes :=
      Variable.succeeds_partsOf_iff.mpr (fun unlisted => clear (.scopes unlisted))
    obtain ⟨tag, detected⟩ :=
      Registry.succeeds_detectNative_iff.mpr
        (fun misleads => clear (.type areScopes misleads))
    obtain ⟨extensions, areExtensions⟩ : Succeeds (subject.extensions scopes) :=
      succeeds_bind_pure_iff.mpr
        (Variable.succeeds_codeSyntax_iff.mpr
          (fun unusable => clear (.codeSyntax unusable)))
    rw [succeeds_readValue_of_detected areScopes detected areExtensions]
    split
    · rename_i valueIsAlias
      exact eq_true_of_ne_false (fun noKey => clear (.target valueIsAlias noKey))
    · rename_i noAlias
      exact fun stumbles =>
        clear (.value (eq_false_of_ne_true noAlias) areScopes detected stumbles)

namespace Variable

/--
The value of the variable in a mode cannot be looked up, since the mode's
identity is no key, or reading it ends with a fault.
-/
inductive TripsIn (subject : Variable) (mode : Mode) : Prop where
  | mode {values : List (String × Wire)} :
      subject.getD "valuesByMode" .null = .obj values →
      mode.id.isKey = false →
      subject.TripsIn mode
  | value {value : Wire} :
      valueIn? subject mode = .ok (some value) →
      subject.Trips value →
      subject.TripsIn mode

end Variable

theorem succeeds_valueIn?_iff
    {mode : Mode} :
    Succeeds (valueIn? subject mode) ↔
      ∀ values, subject.getD "valuesByMode" .null = .obj values →
        mode.id.isKey = true := by
  unfold valueIn?
  split
  · rename_i values areValues
    simp only [areValues]
    split
    · rename_i id isText
      simp [isText, Wire.isKey]
    · split <;> rename_i isKey <;> simp [isKey]
  · rename_i noValues
    exact iff_of_true (succeeds_ok _)
      (fun values areValues => (noValues values areValues).elim)

theorem succeeds_outcomes_iff
    {subjects : List Variable}
    {mode : Mode} :
    Succeeds (outcomes Registry.standard known subjects mode) ↔
      ∀ subject ∈ subjects, ¬ subject.TripsIn mode := by
  unfold outcomes
  refine succeeds_foldlM_iff (fun found subject => ?_) []
  rw [succeeds_bind_iff]
  constructor
  · rintro ⟨value?, isLookedUp, afterValue⟩ trips
    have isValue := lift_eq_ok_iff.mp isLookedUp
    cases trips with
    | mode areValues noKey =>
        cases noKey.symm.trans
          (succeeds_valueIn?_iff.mp ⟨value?, isValue⟩ _ areValues)
    | value isOther trips =>
        cases isValue.symm.trans isOther
        exact succeeds_readValue_iff.mp (succeeds_bind_pure_iff.mp afterValue) trips
  · intro clear
    obtain ⟨value?, isValue⟩ : Succeeds (valueIn? subject mode) := by
      refine succeeds_valueIn?_iff.mpr (fun values areValues => ?_)
      exact eq_true_of_ne_false (fun noKey => clear (.mode areValues noKey))
    refine ⟨value?, lift_eq_ok_iff.mpr isValue, ?_⟩
    cases value? with
    | none => exact succeeds_pure _
    | some value =>
        refine succeeds_bind_pure_iff.mpr (succeeds_readValue_iff.mpr ?_)
        exact fun trips => clear (.value isValue trips)

/--
Reading a listed collection ends with a fault; the values of a hidden
one are not read.
-/
inductive Listed.Trips (known : List Variable) (listed : Listed) : Prop where
  | modes :
      (listed.getD "modes" .null).Unlisted →
      listed.Trips known
  | id {modes : List Mode} :
      listed.modes = .ok modes →
      modes ≠ [] →
      listed.id.isKey = false →
      listed.Trips known
  | value {modes : List Mode} {mode : Mode} {subject : Variable} :
      listed.modes = .ok modes →
      mode ∈ modes →
      listed.isHidden = false →
      subject ∈ VariableExport.members known listed →
      subject.TripsIn mode →
      listed.Trips known

/--
With modes, a collection needs a key as its identity and, unless hidden,
values that are read.
-/
theorem succeeds_readListed_of_modes
    {item : String × Wire}
    {listed : Listed}
    {modes : List Mode}
    (isNamed : Listed.ofMember? item.1 item.2 = some listed)
    (areModes : listed.modes = .ok modes) :
    Succeeds (readListed Registry.standard known false item) ↔
      (modes ≠ [] →
        listed.id.isKey = true ∧
          (listed.isHidden = false →
            ∀ mode ∈ modes,
              ∀ subject ∈ members known listed, ¬ subject.TripsIn mode)) := by
  unfold readListed
  simp only [isNamed, areModes, lift_ok, ok_bind]
  split
  · rename_i noModes
    refine iff_of_true (succeeds_pure _) (fun someModes => ?_)
    exact (someModes (List.isEmpty_iff.mp noModes)).elim
  · rename_i someModes
    rw [List.isEmpty_iff] at someModes
    split
    · rename_i noKey
      rw [Bool.not_eq_true'] at noKey
      refine iff_of_false (fun thrown => ?_) (fun needed => ?_)
      · exact not_succeeds_error _ thrown
      · cases noKey.symm.trans (needed someModes).1
    · rename_i isKey
      rw [Bool.not_eq_true', Bool.not_eq_false] at isKey
      split
      · rename_i leftOut
        refine iff_of_true (succeeds_pure _) (fun _ => ⟨isKey, ?_⟩)
        intro isShown mode _ subject isMember
        have noMembers : members known listed = [] :=
          by simpa [isShown] using leftOut
        rw [noMembers] at isMember
        cases isMember
      · rename_i isRead
        have isShown : listed.isHidden = false :=
          eq_false_of_ne_true (fun isHidden => isRead (by simp [isHidden]))
        rw [succeeds_bind_pure_iff, succeeds_mapM_iff]
        simp only [succeeds_bind_pure_iff, succeeds_outcomes_iff]
        exact ⟨fun each _ => ⟨isKey, fun _ => each⟩,
          fun needed => (needed someModes).2 isShown⟩

theorem succeeds_readListed_iff
    {item : String × Wire} :
    Succeeds (readListed Registry.standard known false item) ↔
      ∀ listed, Listed.ofMember? item.1 item.2 = some listed →
        ¬ listed.Trips known := by
  cases isNamed : Listed.ofMember? item.1 item.2 with
  | none => simp [readListed, isNamed]
  | some listed =>
      simp only [Option.some.injEq, forall_eq']
      have areListed : Succeeds listed.modes ↔
          ¬ (listed.getD "modes" .null).Unlisted :=
        succeeds_bind_pure_iff.trans Variable.succeeds_partsOf_iff
      constructor
      · intro isRead trips
        cases trips with
        | modes unlisted =>
            simp only [readListed, isNamed] at isRead
            obtain ⟨modes, areModes, _⟩ := succeeds_bind_iff.mp isRead
            exact areListed.mp ⟨modes, lift_eq_ok_iff.mp areModes⟩ unlisted
        | id areModes someModes noKey =>
            have needed :=
              (succeeds_readListed_of_modes isNamed areModes).mp isRead someModes
            cases noKey.symm.trans needed.1
        | value areModes isMode isShown isMember trips =>
            have needed := (succeeds_readListed_of_modes isNamed areModes).mp isRead
              (List.ne_nil_of_mem isMode)
            exact needed.2 isShown _ isMode _ isMember trips
      · intro clear
        obtain ⟨modes, areModes⟩ :=
          areListed.mpr (fun unlisted => clear (.modes unlisted))
        refine (succeeds_readListed_of_modes isNamed areModes).mpr
          (fun someModes => ⟨?_, ?_⟩)
        · exact eq_true_of_ne_false
            (fun noKey => clear (.id areModes someModes noKey))
        · exact fun isShown mode isMode subject isMember trips =>
            clear (.value areModes isMode isShown isMember trips)

/-- The variables of a source that have a name, in order. -/
def namedVariables (source : Wire) : List Variable :=
  ((table? "variables" (bodyOf source.members)).getD []).filterMap
    (fun item => Variable.ofMember? item.1 item.2)

/-- The variables of a source, one for each identity: the last one that has it. -/
def knownVariables (source : Wire) : List Variable :=
  (namedVariables source).foldl (fun known subject => addVariable subject known) []

/-- The collections of a source that have a name, in order. -/
def namedCollections (source : Wire) : List Listed :=
  ((table? "variableCollections" (bodyOf source.members)).getD []).filterMap
    (fun item => Listed.ofMember? item.1 item.2)

def addItem (known : List Variable) (item : String × Wire) :
    Except Fault (List Variable) :=
  match Variable.ofMember? item.1 item.2 with
  | none => .ok known
  | some subject =>
      if subject.id.isKey then .ok (addVariable subject known)
      else .error subject.id.keyFault

theorem foldlM_addItem_eq_ok_iff
    {items : List (String × Wire)}
    {before after : List Variable} :
    items.foldlM addItem before = .ok after ↔
      (∀ subject ∈ items.filterMap (fun item => Variable.ofMember? item.1 item.2),
        subject.id.isKey = true) ∧
        (items.filterMap (fun item => Variable.ofMember? item.1 item.2)).foldl
          (fun known subject => addVariable subject known) before = after := by
  -- What is known grows along the list, so the list is taken with any start.
  induction items generalizing before with
  | nil => simp [pure, Except.pure]
  | cons item rest inductionHypothesis =>
      rw [List.foldlM_cons, addItem, List.filterMap_cons]
      cases isNamed : Variable.ofMember? item.1 item.2 with
      | none => exact inductionHypothesis
      | some subject =>
          simp only
          rw [List.forall_mem_cons, List.foldl_cons,
            and_assoc, ← inductionHypothesis]
          by_cases isKey : subject.id.isKey = true
          · simp [isKey]
          · simp [isKey, bind, Except.bind]

theorem variablesOf_eq_ok_iff
    {source : Wire}
    {known : List Variable} :
    variablesOf source = .ok known ↔
      (∀ subject ∈ namedVariables source, subject.id.isKey = true) ∧
        knownVariables source = known :=
  foldlM_addItem_eq_ok_iff

/-- What is used as a key is one, and no collection trips. -/
structure Usable (source : Wire) : Prop where
  identities :
    ∀ subject ∈ namedVariables source, subject.id.isKey = true
  homes :
    ∀ subject ∈ knownVariables source,
      (subject.getD "variableCollectionId" (.str "")).isKey = true
  collections :
    ∀ listed ∈ namedCollections source, ¬ listed.Trips (knownVariables source)

theorem succeeds_readings_iff
    {source : Wire} :
    Succeeds (readings Registry.standard source false) ↔ Usable source := by
  unfold readings
  rw [succeeds_bind_iff]
  constructor
  · rintro ⟨known, areKnown, afterKnown⟩
    obtain ⟨keys, rfl⟩ := variablesOf_eq_ok_iff.mp (lift_eq_ok_iff.mp areKnown)
    obtain ⟨checked, areSteps⟩ :=
      (succeeds_bind_iff_and fun _ => succeeds_bind_pure_iff).mp afterKnown
    refine ⟨keys, fun subject isKnown => ?_, fun listed isListed => ?_⟩
    · have subjectChecked := succeeds_forM_iff.mp checked subject isKnown
      simp only at subjectChecked
      split at subjectChecked
      · assumption
      · exact (not_succeeds_error _ subjectChecked).elim
    · obtain ⟨item, isItem, isNamed⟩ := List.mem_filterMap.mp isListed
      exact succeeds_readListed_iff.mp (succeeds_mapM_iff.mp areSteps item isItem)
        listed isNamed
  · intro usable
    refine ⟨knownVariables source,
      lift_eq_ok_iff.mpr (variablesOf_eq_ok_iff.mpr ⟨usable.identities, rfl⟩), ?_⟩
    refine (succeeds_bind_iff_and fun _ => succeeds_bind_pure_iff).mpr ⟨?_, ?_⟩
    · refine succeeds_forM_iff.mpr (fun subject isKnown => ?_)
      simp only [usable.homes subject isKnown, if_true]
      exact succeeds_pure _
    · refine succeeds_mapM_iff.mpr
        (fun item isItem => succeeds_readListed_iff.mpr ?_)
      exact fun listed isNamed =>
        usable.collections listed (List.mem_filterMap.mpr ⟨item, isItem, isNamed⟩)

theorem variablePath_ne_nil
    (name : String) :
    variablePath name ≠ [] := by
  simp [variablePath, splitText, splitOn_ne_nil]

/-- A collection can be built from whatever was read for it. -/
theorem succeeds_collection
    (reading : Reading) :
    Succeeds reading.collection := by
  refine Collection.succeeds_build (fun mode isMode entry isEntry => ?_) rfl _ _
  obtain ⟨named, isNamed, rfl⟩ := List.mem_map.mp isMode
  obtain ⟨grouped, isGrouped, inGroup⟩ :=
    exists_mode_of_mem_byMode named isNamed entry isEntry
  obtain ⟨one, _, rfl⟩ := List.mem_map.mp isGrouped
  obtain ⟨⟨subject, outcome⟩, _, isPlaced⟩ := List.mem_filterMap.mp inGroup
  cases outcome with
  | unreadable tag => cases isPlaced
  | token result =>
      obtain rfl := Option.some.inj isPlaced
      exact variablePath_ne_nil subject.name

/-- Without options, hidden collections are left out. -/
theorem decode_null :
    Options.decode .null = .ok ⟨.null, .null, false⟩ :=
  rfl

/-- Building collections never fails, so parsing ends well when reading does. -/
theorem succeeds_parse_iff_readings
    {source : Wire} :
    Succeeds (parse Registry.standard source .null) ↔
      reasons source = [] ∧ Succeeds (readings Registry.standard source false) := by
  rw [← @succeeds_accept_iff sourceName]
  unfold parse
  refine succeeds_bind_iff_and (fun _ => ?_)
  simp only [decode_null, lift_ok, ok_bind]
  refine succeeds_bind_of_total (fun readings => succeeds_bind_pure_iff.mpr ?_)
  exact succeeds_mapM_iff.mpr
    (fun reading _ => succeeds_lift_iff.mpr (succeeds_collection reading))

/--
A variable export is parsed without options exactly when nothing speaks against
it and it is usable.
-/
theorem export_parses_iff_accepted_and_usable
    (source : Wire) :
    Succeeds (parse Registry.standard source .null) ↔
      reasons source = [] ∧ Usable source := by
  rw [succeeds_parse_iff_readings, succeeds_readings_iff]

/-- An export with a list where the identity of a variable may stand. -/
def unkeyedExport : Wire :=
  .obj
    [ ("variables", .obj [("v", .obj [("name", .str "n"), ("id", .list [])])]),
      ("variableCollections", .obj []) ]

/--
A list is let through as the identity of a variable, and parsing
ends with a fault.
-/
theorem unkeyed_accepted_not_parsed :
    reasons unkeyedExport = [] ∧
      ¬ Succeeds (parse Registry.standard unkeyedExport .null) := by
  refine ⟨rfl, fun parsed => ?_⟩
  have usable := succeeds_readings_iff.mp (succeeds_parse_iff_readings.mp parsed).2
  have isKey := usable.identities
    ⟨.list [], "n", [("name", .str "n"), ("id", .list [])]⟩
    (List.mem_singleton_self _)
  cases isKey

end VariableExport

end DesignTokens
