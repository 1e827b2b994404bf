import DesignTokens.Proofs.Source.Stylesheet

namespace DesignTokens.Stylesheet

/-!
# Light and dark modes

Light declarations make up the default mode and dark ones a mode of their own.
The two only get in each other's way when the default mode has the name of the
dark one.
-/

/-- A reading keeps the declaration that it is a reading of. -/
theorem declaration_of_read
    {registry : Registry}
    {types : List (String × String)}
    {start : String}
    {declaration : Declaration}
    {reading : Reading}
    (isRead : read registry types start declaration = .ok reading) :
    reading.declaration = declaration := by
  unfold read at isRead
  simp only at isRead
  split at isRead
  · obtain rfl := pure_eq_ok_iff.mp isRead
    rfl
  · obtain ⟨tag, _, afterTag⟩ := bind_eq_ok_iff.mp isRead
    obtain ⟨handler, _, afterHandler⟩ := bind_eq_ok_iff.mp afterTag
    obtain ⟨value?, _, afterValue⟩ := bind_eq_ok_iff.mp afterHandler
    split at afterValue
    · obtain rfl := pure_eq_ok_iff.mp afterValue
      rfl
    · obtain rfl := pure_eq_ok_iff.mp afterValue
      rfl

/--
All declarations are read alike, given the types of their names and
the shared start.
-/
theorem exists_types_of_readAll
    {registry : Registry}
    {options : Options}
    {declarations : List Declaration}
    {readings : List Reading}
    (areRead : readAll registry options declarations = .ok readings) :
    ∃ types start,
      typesByName (declarations.map (fun one => (one.name, one.value))) =
        .ok types ∧
        declarations.mapM (read registry types start) = .ok readings := by
  unfold readAll at areRead
  obtain ⟨types, areTypes, afterTypes⟩ := bind_eq_ok_iff.mp areRead
  simp only at afterTypes
  split at afterTypes
  · exact ⟨types, "", lift_eq_ok_iff.mp areTypes, afterTypes⟩
  · obtain ⟨start, _, allRead⟩ := bind_eq_ok_iff.mp afterTypes
    exact ⟨types, start, lift_eq_ok_iff.mp areTypes, allRead⟩

/-- All declarations are read, in their order. -/
theorem declarations_of_readAll
    {registry : Registry}
    {options : Options}
    {declarations : List Declaration}
    {readings : List Reading}
    (areRead : readAll registry options declarations = .ok readings) :
    readings.map Reading.declaration = declarations := by
  obtain ⟨types, start, _, allRead⟩ := exists_types_of_readAll areRead
  have sameDeclarations : readings.map Reading.declaration = declarations.map id :=
    map_of_mapM allRead fun _ _ => declaration_of_read
  rwa [List.map_id] at sameDeclarations

/--
The entries of a scheme among readings: the tokens with their paths, in the order
of the readings, of those that belong to the scheme and have a path.
-/
inductive IsScheme (dark : Bool) : List Reading → Entries → Prop where
  | nil : IsScheme dark [] []
  | placed {reading : Reading} {rest : List Reading} {entries : Entries} :
      reading.declaration.context.isDark = dark →
        reading.path ≠ [] →
          IsScheme dark rest entries →
            IsScheme dark (reading :: rest)
              ((reading.path, reading.token) :: entries)
  | other {reading : Reading} {rest : List Reading} {entries : Entries} :
      reading.declaration.context.isDark ≠ dark →
        IsScheme dark rest entries →
          IsScheme dark (reading :: rest) entries
  | skipped {reading : Reading} {rest : List Reading} {entries : Entries} :
      reading.path = [] →
        IsScheme dark rest entries →
          IsScheme dark (reading :: rest) entries

theorem entriesOf_cons
    (dark : Bool)
    (reading : Reading)
    (rest : List Reading) :
    entriesOf dark (reading :: rest) =
      if reading.path ≠ [] ∧ reading.declaration.context.isDark = dark then
        (reading.path, reading.token) :: entriesOf dark rest
      else entriesOf dark rest := by
  have isKept :
      (reading.isPlaced && reading.isDark == dark) = true ↔
        reading.path ≠ [] ∧ reading.declaration.context.isDark = dark := by
    simp [Reading.isPlaced, Reading.isDark]
  unfold entriesOf
  rw [List.filter_cons]
  simp only [isKept]
  split
  · rfl
  · rfl

/-- The entries of a scheme are those that are read for its mode. -/
theorem isScheme_iff
    {dark : Bool}
    {readings : List Reading}
    {entries : Entries} :
    IsScheme dark readings entries ↔ entries = entriesOf dark readings := by
  constructor
  · intro isScheme
    induction isScheme with
    | nil => rfl
    | placed ofScheme hasPath _ inductionHypothesis =>
        rw [entriesOf_cons, if_pos ⟨hasPath, ofScheme⟩, inductionHypothesis]
    | other otherScheme _ inductionHypothesis =>
        rw [entriesOf_cons, if_neg (fun both => otherScheme both.2),
          inductionHypothesis]
    | skipped noPath _ inductionHypothesis =>
        rw [entriesOf_cons, if_neg (fun both => both.1 noPath), inductionHypothesis]
  · rintro rfl
    induction readings with
    | nil => exact .nil
    | cons reading rest inductionHypothesis =>
        rw [entriesOf_cons]
        split
        · rename_i both
          exact .placed both.2 both.1 inductionHypothesis
        · rename_i notBoth
          by_cases hasPath : reading.path = []
          · exact .skipped hasPath inductionHypothesis
          · exact .other (fun ofScheme => notBoth ⟨hasPath, ofScheme⟩)
              inductionHypothesis

/--
A collection whose modes are a light and a dark scheme; the latter is there
if it has entries.
-/
structure HasSchemes
    (collection : Collection)
    (name : String)
    (darkEntries : Entries)
    (light dark : Group) : Prop where
  isDefault : collection.defaultMode = .str name
  modes : collection.modes = collection.tokens.map Prod.fst
  lightOnly :
    darkEntries = [] →
      collection.tokens = [(.str name, light)]
  both :
    darkEntries ≠ [] → name ≠ darkMode →
      collection.tokens = [(.str name, light), (.str darkMode, dark)]
  darkOnly :
    darkEntries ≠ [] → name = darkMode →
      collection.tokens = [(.str name, dark)]

/--
The trees of a collection of named modes are those of the entries of the modes.
-/
theorem hasSchemes_of_collectionOf
    {options : Options}
    {name : String}
    (isNamed : options.defaultMode = .str name)
    {readings : List Reading}
    {light dark : Group}
    (isLight : Group.build (entriesOf false readings) = .ok light)
    (isDark : Group.build (entriesOf true readings) = .ok dark)
    {collection : Collection}
    (isBuilt : collectionOf options readings = .ok collection) :
    HasSchemes collection name (entriesOf true readings) light dark := by
  unfold collectionOf modesOf at isBuilt
  rw [isNamed] at isBuilt
  simp only [Wire.same_str, List.isEmpty_iff, beq_iff_eq] at isBuilt
  by_cases noDark : entriesOf true readings = []
  · rw [if_pos noDark] at isBuilt
    have lightBuilt :
        Collection.build options.collectionName
          (Collection.named [(name, entriesOf false readings)]) (.str name) .null =
            .ok collection :=
      isBuilt
    obtain ⟨isDefault, _, modes, trees⟩ :=
      Collection.modes_of_build (by simp) lightBuilt
    have tokens : [(.str name, light)] = collection.tokens :=
      by simpa [isLight] using trees
    exact ⟨isDefault, modes, fun _ => tokens.symm, fun someDark =>
      (someDark noDark).elim, fun someDark => (someDark noDark).elim⟩
  · rw [if_neg noDark] at isBuilt
    by_cases isDarkName : name = darkMode
    · rw [if_pos isDarkName] at isBuilt
      have darkBuilt :
          Collection.build options.collectionName
            (Collection.named [(name, entriesOf true readings)]) (.str name) .null =
              .ok collection :=
        isBuilt
      obtain ⟨isDefault, _, modes, trees⟩ :=
        Collection.modes_of_build (by simp) darkBuilt
      have tokens : [(.str name, dark)] = collection.tokens :=
        by simpa [isDark] using trees
      exact ⟨isDefault, modes, fun isEmpty => (noDark isEmpty).elim,
        fun _ otherName => (otherName isDarkName).elim, fun _ _ => tokens.symm⟩
    · rw [if_neg isDarkName] at isBuilt
      have bothBuilt :
          Collection.build options.collectionName
            (Collection.named
              [(name, entriesOf false readings),
                (darkMode, entriesOf true readings)]) (.str name) .null =
                  .ok collection :=
        isBuilt
      obtain ⟨isDefault, _, modes, trees⟩ :=
        Collection.modes_of_build (by simp [isDarkName]) bothBuilt
      have tokens : [(.str name, light), (.str darkMode, dark)] =
          collection.tokens := by
        simpa [isLight, isDark] using trees
      exact ⟨isDefault, modes, fun isEmpty => (noDark isEmpty).elim,
        fun _ _ => tokens.symm, fun _ isName => (isDarkName isName).elim⟩

/-- A parsed style sheet is one collection of the readings of its declarations. -/
theorem exists_readings_of_parse
    {registry : Registry}
    {source given : Wire}
    {options : Options}
    (areOptions : Options.decode (optionsOf source given) = .ok options)
    {theme : Theme}
    (isParsed : parse registry source given = .ok theme) :
    ∃ readings collection,
      readAll registry options (extract options.kinds (textOf source)) =
        .ok readings ∧
        collectionOf options readings = .ok collection ∧
        theme.collections = [collection] := by
  unfold parse at isParsed
  rw [areOptions] at isParsed
  obtain ⟨_, _, afterAccept⟩ := bind_eq_ok_iff.mp isParsed
  simp only [lift_ok, ok_bind] at afterAccept
  obtain ⟨readings, areRead, afterReadings⟩ := bind_eq_ok_iff.mp afterAccept
  obtain ⟨collection, isCollection, isTheme⟩ := bind_eq_ok_iff.mp afterReadings
  obtain rfl := pure_eq_ok_iff.mp isTheme
  exact ⟨readings, collection, areRead, lift_eq_ok_iff.mp isCollection, rfl⟩

/--
The light declarations of a parsed style sheet, in document order and without
those whose path is empty, make up the tree of the default mode, and the dark
ones that of a dark mode, which exists when there are any.  Only where the
default mode is itself called dark, dark declarations take the place of the
light ones.
-/
theorem parse_separates_schemes
    {registry : Registry}
    {source given : Wire}
    {options : Options}
    (areOptions : Options.decode (optionsOf source given) = .ok options)
    {name : String}
    (isNamed : options.defaultMode = .str name)
    {theme : Theme}
    (isParsed : parse registry source given = .ok theme) :
    ∃ readings lightEntries darkEntries light dark collection,
      readAll registry options (extract options.kinds (textOf source)) =
        .ok readings ∧
        readings.map Reading.declaration = extract options.kinds (textOf source) ∧
        IsScheme false readings lightEntries ∧
        IsScheme true readings darkEntries ∧
        Group.build lightEntries = .ok light ∧
        Group.build darkEntries = .ok dark ∧
        theme.collections = [collection] ∧
        HasSchemes collection name darkEntries light dark := by
  obtain ⟨readings, collection, areRead, isBuilt, isOnly⟩ :=
    exists_readings_of_parse areOptions isParsed
  obtain ⟨light, isLight⟩ :=
    Group.succeeds_build (placeable_entriesOf false readings)
  obtain ⟨dark, isDark⟩ := Group.succeeds_build (placeable_entriesOf true readings)
  exact ⟨readings, _, _, light, dark, collection, areRead,
    declarations_of_readAll areRead, isScheme_iff.mpr rfl, isScheme_iff.mpr rfl,
    isLight, isDark, isOnly,
    hasSchemes_of_collectionOf isNamed isLight isDark isBuilt⟩

/-- The paths of the tokens of every tree, when there is a theme. -/
def treeKeys (outcome : Except Failure Theme) : Option (List (List String)) :=
  outcome.toOption.map fun theme =>
    theme.collections.flatMap fun collection =>
      collection.tokens.map fun tree => tree.2.keys

/--
Two light declarations with one between them whose path is
empty, and a dark one.
-/
def withPathless : Wire :=
  .str ":root \x7b --b: x; ---: y; --a: z; \x7d .dark \x7b --c: w; \x7d"

/--
Without options, the declarations that have a path are kept in order,
each in its scheme.
-/
theorem parse_withPathless :
    ∃ theme readings lightEntries darkEntries light dark,
      Options.decode (optionsOf withPathless .null) = .ok Options.plain ∧
        Options.plain.defaultMode = .str "default" ∧
        parse Registry.standard withPathless .null = .ok theme ∧
        readings.map Reading.path = [["b"], [], ["a"], ["c"]] ∧
        IsScheme false readings lightEntries ∧
        lightEntries.map Prod.fst = [["b"], ["a"]] ∧
        IsScheme true readings darkEntries ∧
        darkEntries.map Prod.fst = [["c"]] ∧
        Group.build lightEntries = .ok light ∧
        Group.build darkEntries = .ok dark ∧
        theme.collections.map Collection.tokens =
          [[(.str "default", light), (.str "dark", dark)]] ∧
        light.keys = ["b", "a"] ∧ dark.keys = ["c"] := by
  have areOptions : Options.decode (optionsOf withPathless .null) =
      .ok Options.plain := decode_null
  have shown : treeKeys (parse Registry.standard withPathless .null) =
      some [["b", "a"], ["c"]] := by
    decide +kernel
  have pathsShown :
      (readAll Registry.standard Options.plain
          (extract Options.plain.kinds (textOf withPathless))).toOption.map
        (fun readings =>
          (readings.map Reading.path, (entriesOf false readings).map Prod.fst,
            (entriesOf true readings).map Prod.fst)) =
        some ([["b"], [], ["a"], ["c"]], [["b"], ["a"]], [["c"]]) := by
    decide +kernel
  cases isParsed : parse Registry.standard withPathless .null with
  | error failure =>
      rw [isParsed] at shown
      cases shown
  | ok theme =>
      obtain ⟨readings, lightEntries, darkEntries, light, dark, collection, areRead,
        _, isLight, isDark, lightBuilt, darkBuilt, isOnly, schemes⟩ :=
        parse_separates_schemes areOptions rfl isParsed
      have paths :
          (readings.map Reading.path, (entriesOf false readings).map Prod.fst,
              (entriesOf true readings).map Prod.fst) =
            ([["b"], [], ["a"], ["c"]], [["b"], ["a"]], [["c"]]) := by
        rw [areRead] at pathsShown
        exact Option.some.inj pathsShown
      rw [← isScheme_iff.mp isLight, ← isScheme_iff.mp isDark] at paths
      obtain ⟨readingPaths, entryPaths⟩ := Prod.mk.inj paths
      obtain ⟨lightPaths, darkPaths⟩ := Prod.mk.inj entryPaths
      have someDark : darkEntries ≠ [] := by
        rintro rfl
        cases darkPaths
      have tokens := schemes.both someDark (by decide)
      have keys : collection.tokens.map (fun tree => tree.2.keys) =
          [["b", "a"], ["c"]] := by
        rw [isParsed] at shown
        simpa [treeKeys, Except.toOption, isOnly] using shown
      rw [tokens] at keys
      obtain ⟨lightKeys, restKeys⟩ := List.cons.inj keys
      obtain ⟨darkKeys, _⟩ := List.cons.inj restKeys
      exact ⟨theme, readings, lightEntries, darkEntries, light, dark, areOptions,
        rfl, rfl, readingPaths, isLight, lightPaths, isDark, darkPaths, lightBuilt,
        darkBuilt, by simp [isOnly, tokens, darkMode], lightKeys, darkKeys⟩

/-- A light declaration and a dark one. -/
def mixed : Wire :=
  .str ":root \x7b --a: x; \x7d .dark \x7b --b: y; \x7d"

/-- The default mode is called dark. -/
def darkDefault : Wire :=
  .obj [("default_mode", .str "dark")]

/-- With a default mode called dark, the light declaration is in no tree. -/
theorem parse_mixed_darkDefault :
    (extract Kinds.all (textOf mixed)).map
        (fun found => (pathOf "" found.name, found.context.isDark)) =
      [(["a"], false), (["b"], true)] ∧
    treeKeys (parse Registry.standard mixed darkDefault) = some [["b"]] := by
  decide +kernel

end DesignTokens.Stylesheet
