import DesignTokens.Lint.Setting
import DesignTokens.Proofs.Wire.Members
import DesignTokens.Lint.ConfigFile

namespace DesignTokens.Lint.Config

/-!
# Resolved configurations

Merging applies one configuration after another.  What comes of several merges
is told by the list of what was merged: the last one that mentions a rule
decides on it, and what is left out adds up.

The files that a configuration builds on are told by chains: each file of a
chain is named by the one before.  Resolving fails exactly when a chain comes to
a name that leads nowhere, or back to one of its files; otherwise it combines
the configurations in the order in which a walk along the names leaves them.
-/

/-- No rule is mentioned twice. -/
def DistinctRules (config : Config) : Prop :=
  (config.rules.map Prod.fst).Nodup

instance (config : Config) : Decidable config.DistinctRules :=
  inferInstanceAs (Decidable (config.rules.map Prod.fst).Nodup)

/-- What is said about a rule by the last configuration that mentions it. -/
def lastSetting? (order : List Config) (rule : String) : Option Setting :=
  order.reverse.findSome? (fun config => config.setting? rule)

theorem lastSetting?_append
    (first second : List Config)
    (rule : String) :
    lastSetting? (first ++ second) rule =
      (lastSetting? second rule).or (lastSetting? first rule) := by
  simp [lastSetting?, List.findSome?_append]

/-- A merge keeps what is said unless the later configuration mentions the rule. -/
theorem setting?_merge
    {override : Config}
    (distinct : override.DistinctRules)
    (base : Config)
    (rule : String) :
    (base.merge override).setting? rule =
      (override.setting? rule).or (base.setting? rule) :=
  Wire.lookup?_foldl_add distinct rule base.rules

theorem distinctRules_merge
    {base : Config}
    (distinct : base.DistinctRules)
    (override : Config) :
    (base.merge override).DistinctRules :=
  Wire.nodup_foldl_add distinct override.rules

/-- A configuration says what configurations say that apply one after the other. -/
structure Combines (order : List Config) (config : Config) : Prop where
  distinct : config.DistinctRules
  setting : ∀ rule, config.setting? rule = lastSetting? order rule
  ignorePatterns : config.ignorePatterns = order.flatMap Config.ignorePatterns
  ignoreCollections :
    config.ignoreCollections = order.flatMap Config.ignoreCollections

theorem combines_nil :
    Combines [] empty := by
  constructor
  · exact List.nodup_nil
  · intro rule
    rfl
  · rfl
  · rfl

theorem combines_singleton
    {config : Config}
    (distinct : config.DistinctRules) :
    Combines [config] config := by
  constructor
  · exact distinct
  · intro rule
    simp [lastSetting?]
  · simp
  · simp

/-- Merging applies what came of one order after what came of another. -/
theorem Combines.merge
    {earlier later : List Config}
    {base override : Config}
    (before : Combines earlier base)
    (after : Combines later override) :
    Combines (earlier ++ later) (base.merge override) where
  distinct := distinctRules_merge before.distinct override
  setting rule := by
    rw [setting?_merge after.distinct, before.setting, after.setting,
      lastSetting?_append]
  ignorePatterns := by
    rw [List.flatMap_append, ← before.ignorePatterns, ← after.ignorePatterns]
    rfl
  ignoreCollections := by
    rw [List.flatMap_append, ← before.ignoreCollections, ← after.ignoreCollections]
    rfl

end DesignTokens.Lint.Config

namespace DesignTokens.Lint

/-! Chains of files. -/

/-- No preset mentions a rule twice. -/
theorem Preset.distinctRules_config
    (preset : Preset) :
    preset.config.DistinctRules := by
  cases preset <;> decide

namespace Catalog

/--
Loading mentions no rule twice, and fails with problems of configurations only.
-/
structure Regular (catalog : Catalog) : Prop where
  distinct : ∀ path found, catalog.load path = .ok found → found.DistinctRules
  problems :
    ∀ path problem, catalog.load path = .error problem →
      problem.category = .configuration

/--
The files of a chain, latest first, and the directory and content
of the last one.
-/
inductive Chain (catalog : Catalog) (directory : FilePath) (config : Config) :
    List FilePath → FilePath → Config → Prop where
  | start : Chain catalog directory config [] directory config
  | further {passed : List FilePath} {place : FilePath} {found next : Config}
      {name : String} :
      Chain catalog directory config passed place found →
      name ∈ found.extended →
      Preset.ofName? name = none →
      catalog.load (catalog.locate place name) = .ok next →
      Chain catalog directory config (catalog.locate place name :: passed)
        (catalog.locate place name).parent next

/--
A chain comes to a name that is no preset and leads to no file
that can be loaded.
-/
def Misses (catalog : Catalog) (directory : FilePath) (config : Config) : Prop :=
  ∃ passed place found name problem,
    catalog.Chain directory config passed place found ∧
      name ∈ found.extended ∧ Preset.ofName? name = none ∧
      catalog.load (catalog.locate place name) = .error problem

/-- A chain comes back to one of its files. -/
def Loops (catalog : Catalog) (directory : FilePath) (config : Config) : Prop :=
  ∃ passed place found,
    catalog.Chain directory config passed place found ∧ ¬ passed.Nodup

/-- The configurations that names lead to, each after those that it builds on. -/
inductive Expands (catalog : Catalog) :
    FilePath → List String → List Config → Prop where
  | nil (directory : FilePath) : Expands catalog directory [] []
  | preset {directory : FilePath} {name : String} {rest : List String}
      {preset : Preset} {later : List Config} :
      Preset.ofName? name = some preset →
      Expands catalog directory rest later →
      Expands catalog directory (name :: rest) (preset.config :: later)
  | file {directory : FilePath} {name : String} {rest : List String}
      {found : Config} {below later : List Config} :
      Preset.ofName? name = none →
      catalog.load (catalog.locate directory name) = .ok found →
      Expands catalog (catalog.locate directory name).parent found.extended below →
      Expands catalog directory rest later →
      Expands catalog directory (name :: rest) (below ++ found :: later)

/-- Names lead to one list of configurations at most. -/
theorem Expands.unique
    {catalog : Catalog}
    {directory : FilePath}
    {names : List String}
    {first second : List Config}
    (isFirst : catalog.Expands directory names first)
    (isSecond : catalog.Expands directory names second) :
    first = second := by
  induction isFirst generalizing second with
  | nil => cases isSecond; rfl
  | preset isPreset _ restUnique =>
      cases isSecond with
      | preset otherPreset otherRest =>
          cases isPreset.symm.trans otherPreset
          rw [restUnique otherRest]
      | file notPreset => cases isPreset.symm.trans notPreset
  | file notPreset isLoaded _ _ belowUnique restUnique =>
      cases isSecond with
      | preset isPreset => cases notPreset.symm.trans isPreset
      | file _ otherLoaded otherBelow otherRest =>
          cases isLoaded.symm.trans otherLoaded
          rw [belowUnique otherBelow, restUnique otherRest]

/-- What a name stands for below the files of a chain. -/
def meaning (catalog : Catalog) (passed : List FilePath) (directory : FilePath)
    (name : String) : Except Problem Config :=
  match Preset.ofName? name with
  | some preset => .ok preset.config
  | none =>
      let path := catalog.locate directory name
      if passed.contains path then .error (extendsItself path)
      else do
        let found ← catalog.load path
        catalog.resolveFrom (path :: passed) path.parent found

/--
A configuration is resolved by merging what its names stand for,
and itself on top.
-/
theorem resolveFrom_eq
    (catalog : Catalog)
    (passed : List FilePath)
    (directory : FilePath)
    (config : Config) :
    catalog.resolveFrom passed directory config =
      (config.extended.mapM (catalog.meaning passed directory)).map
        (fun meanings => (meanings.foldl Config.merge .empty).merge config) := by
  have folded : catalog.resolveFrom passed directory config =
      (config.extended.foldlM
        (fun known name =>
          (catalog.meaning passed directory name).map (Config.merge known))
        Config.empty).map (Config.merge · config) := by
    rw [resolveFrom]
    congr 2
    funext known name
    unfold meaning
    cases Preset.ofName? name with
    | some preset => rfl
    | none =>
        simp only
        split
        · rfl
        · split
          · rename_i problem isLoaded
            rw [isLoaded]
            rfl
          · rename_i found isLoaded
            rw [isLoaded]
            rfl
  rw [folded, foldlM_eq_map_mapM]
  cases config.extended.mapM (catalog.meaning passed directory) <;> rfl

/--
A name stands for a preset, or for a file off the chain that can be
loaded and resolved.
-/
theorem meaning_eq_ok_iff
    {catalog : Catalog}
    {passed : List FilePath}
    {directory : FilePath}
    {name : String}
    {resolved : Config} :
    catalog.meaning passed directory name = .ok resolved ↔
      (∃ preset, Preset.ofName? name = some preset ∧ preset.config = resolved) ∨
        (Preset.ofName? name = none ∧ catalog.locate directory name ∉ passed ∧
          ∃ found, catalog.load (catalog.locate directory name) = .ok found ∧
            catalog.resolveFrom (catalog.locate directory name :: passed)
              (catalog.locate directory name).parent found = .ok resolved) := by
  unfold meaning
  cases Preset.ofName? name with
  | some preset => simp
  | none =>
      by_cases isPassed : catalog.locate directory name ∈ passed
      · simp [isPassed]
      · simp [isPassed, bind_eq_ok_iff]

/--
A name stands for nothing when its file is on the chain, or cannot be
loaded or resolved.
-/
theorem meaning_eq_error
    {catalog : Catalog}
    {passed : List FilePath}
    {directory : FilePath}
    {name : String}
    {problem : Problem}
    (failed : catalog.meaning passed directory name = .error problem) :
    Preset.ofName? name = none ∧
      (catalog.locate directory name ∈ passed ∧
          problem = extendsItself (catalog.locate directory name) ∨
        catalog.load (catalog.locate directory name) = .error problem ∨
        ∃ found, catalog.locate directory name ∉ passed ∧
          catalog.load (catalog.locate directory name) = .ok found ∧
          catalog.resolveFrom (catalog.locate directory name :: passed)
            (catalog.locate directory name).parent found = .error problem) := by
  unfold meaning at failed
  cases isPreset : Preset.ofName? name with
  | some preset =>
      rw [isPreset] at failed
      cases failed
  | none =>
      simp only [isPreset] at failed
      refine ⟨rfl, ?_⟩
      split at failed
      · rename_i isPassed
        exact .inl ⟨by simpa using isPassed, (Except.error.inj failed).symm⟩
      · rename_i notPassed
        cases isLoaded : catalog.load (catalog.locate directory name) with
        | error loadProblem =>
            rw [isLoaded] at failed
            exact .inr (.inl failed)
        | ok found =>
            rw [isLoaded, ok_bind] at failed
            exact .inr (.inr ⟨found, by simpa using notPassed, rfl, failed⟩)

/--
The meanings of names combine what the names lead to when those
of their files do.
-/
theorem exists_expansion_of_meanings
    {catalog : Catalog}
    {passed : List FilePath}
    {directory : FilePath}
    (below : ∀ name found resolved,
      catalog.locate directory name ∉ passed →
      catalog.load (catalog.locate directory name) = .ok found →
      catalog.resolveFrom (catalog.locate directory name :: passed)
        (catalog.locate directory name).parent found = .ok resolved →
      ∃ order,
        catalog.Expands (catalog.locate directory name).parent
          found.extended order ∧
          Config.Combines (order ++ [found]) resolved)
    {names : List String}
    {meanings before : List Config}
    {known : Config}
    (areMeanings : names.mapM (catalog.meaning passed directory) = .ok meanings)
    (combines : Config.Combines before known) :
    ∃ order, catalog.Expands directory names order ∧
      Config.Combines (before ++ order) (meanings.foldl Config.merge known) := by
  induction names generalizing meanings before known with
  | nil =>
      obtain rfl := pure_eq_ok_iff.mp areMeanings
      refine ⟨[], .nil directory, ?_⟩
      rwa [List.append_nil]
  | cons name rest inductionHypothesis =>
      rw [List.mapM_cons] at areMeanings
      obtain ⟨first, isFirst, afterFirst⟩ := bind_eq_ok_iff.mp areMeanings
      obtain ⟨others, areOthers, joined⟩ := bind_eq_ok_iff.mp afterFirst
      obtain rfl := pure_eq_ok_iff.mp joined
      rcases meaning_eq_ok_iff.mp isFirst with
        ⟨preset, isPreset, rfl⟩ | ⟨notPreset, notPassed, found, isLoaded,
          isResolved⟩
      · have merged :=
          combines.merge (Config.combines_singleton preset.distinctRules_config)
        obtain ⟨later, expands, combined⟩ := inductionHypothesis areOthers merged
        refine ⟨preset.config :: later, .preset isPreset expands, ?_⟩
        rwa [List.append_assoc] at combined
      · obtain ⟨order, expandsBelow, combinesBelow⟩ :=
          below name found first notPassed isLoaded isResolved
        have merged := combines.merge combinesBelow
        obtain ⟨later, expands, combined⟩ := inductionHypothesis areOthers merged
        refine ⟨order ++ found :: later,
          .file notPreset isLoaded expandsBelow expands, ?_⟩
        simpa using combined

/--
A resolved configuration combines what its names lead to, and itself after that.
-/
theorem exists_expansion
    {catalog : Catalog}
    (regular : catalog.Regular)
    {passed : List FilePath}
    {directory : FilePath}
    {config result : Config}
    (distinct : config.DistinctRules)
    (resolved : catalog.resolveFrom passed directory config = .ok result) :
    ∃ order, catalog.Expands directory config.extended order ∧
      Config.Combines (order ++ [config]) result := by
  induction passed, directory, config using
    resolveFrom.induct catalog generalizing result with
  | case1 passed directory config inductionHypothesis =>
      rw [resolveFrom_eq] at resolved
      obtain ⟨meanings, areMeanings, rfl⟩ := map_eq_ok_iff.mp resolved
      have below (name : String) (found resolved : Config)
          (notPassed : catalog.locate directory name ∉ passed)
          (isLoaded : catalog.load (catalog.locate directory name) = .ok found)
          (isResolved :
            catalog.resolveFrom (catalog.locate directory name :: passed)
              (catalog.locate directory name).parent found = .ok resolved) :=
        inductionHypothesis name (by simpa using notPassed) found isLoaded
          (regular.distinct _ _ isLoaded) isResolved
      obtain ⟨order, expands, combines⟩ :=
        exists_expansion_of_meanings below areMeanings Config.combines_nil
      exact ⟨order, expands, combines.merge (Config.combines_singleton distinct)⟩

/-- Every file of a chain can be loaded. -/
theorem Chain.exists_load
    {catalog : Catalog}
    {directory place : FilePath}
    {config found : Config}
    {passed : List FilePath}
    (chain : catalog.Chain directory config passed place found)
    {path : FilePath}
    (isPassed : path ∈ passed) :
    ∃ content, catalog.load path = .ok content := by
  induction chain with
  | start => cases isPassed
  | further _ _ _ isLoaded inductionHypothesis =>
      rcases List.mem_cons.mp isPassed with rfl | wasPassed
      · exact ⟨_, isLoaded⟩
      · exact inductionHypothesis wasPassed

/--
When resolving fails at the end of a chain, a chain comes to a
missing file or loops.
-/
theorem Chain.misses_or_loops
    {catalog : Catalog}
    (regular : catalog.Regular)
    {directory place : FilePath}
    {config found : Config}
    {passed : List FilePath}
    (chain : catalog.Chain directory config passed place found)
    {problem : Problem}
    (failed : catalog.resolveFrom passed place found = .error problem) :
    problem.category = .configuration ∧
      (catalog.Misses directory config ∨ catalog.Loops directory config) := by
  induction passed, place, found using resolveFrom.induct catalog with
  | case1 passed place found inductionHypothesis =>
      rw [resolveFrom_eq] at failed
      obtain ⟨name, isName, nameFailed⟩ :=
        exists_of_mapM_eq_error (map_eq_error_iff.mp failed)
      obtain ⟨notPreset,
        ⟨isPassed, rfl⟩ | notLoaded | ⟨next, notPassed, isLoaded, nextFailed⟩⟩ :=
        meaning_eq_error nameFailed
      -- A file on the chain was loaded before, so the chain goes on to it once
      -- more.
      · obtain ⟨next, isLoaded⟩ := chain.exists_load isPassed
        refine ⟨rfl, .inr ⟨_, _, next, chain.further isName notPreset isLoaded, ?_⟩⟩
        simp [isPassed]
      · exact ⟨regular.problems _ _ notLoaded,
          .inl ⟨_, _, _, name, problem, chain, isName, notPreset, notLoaded⟩⟩
      · exact inductionHypothesis name (by simpa using notPassed) next isLoaded
          (chain.further isName notPreset isLoaded) nextFailed

/-- What a resolved configuration names stands for something. -/
theorem succeeds_meaning_of_resolved
    {catalog : Catalog}
    {passed : List FilePath}
    {directory : FilePath}
    {config : Config}
    (resolved : Succeeds (catalog.resolveFrom passed directory config))
    {name : String}
    (isName : name ∈ config.extended) :
    Succeeds (catalog.meaning passed directory name) := by
  rw [resolveFrom_eq, succeeds_map_iff, succeeds_mapM_iff] at resolved
  exact resolved name isName

/--
When a configuration is resolved, so are the ends of its chains, and
none of these loops.
-/
theorem Chain.resolved
    {catalog : Catalog}
    {directory place : FilePath}
    {config found : Config}
    {passed : List FilePath}
    (chain : catalog.Chain directory config passed place found)
    (resolved : Succeeds (catalog.resolve directory config)) :
    passed.Nodup ∧ Succeeds (catalog.resolveFrom passed place found) := by
  induction chain with
  | start => exact ⟨List.nodup_nil, resolved⟩
  | further _ isName notPreset isLoaded inductionHypothesis =>
      obtain ⟨distinct, placeResolved⟩ := inductionHypothesis
      obtain ⟨meant, isMeant⟩ := succeeds_meaning_of_resolved placeResolved isName
      rcases meaning_eq_ok_iff.mp isMeant with
        ⟨preset, isPreset, _⟩ | ⟨_, notPassed, content, contentLoaded,
          contentResolved⟩
      · cases notPreset.symm.trans isPreset
      · cases isLoaded.symm.trans contentLoaded
        exact ⟨List.nodup_cons.mpr ⟨notPassed, distinct⟩, meant, contentResolved⟩

/--
A configuration that is resolved has no chain to a missing file and
none that loops.
-/
theorem not_misses_or_loops
    {catalog : Catalog}
    {directory : FilePath}
    {config : Config}
    (resolved : Succeeds (catalog.resolve directory config)) :
    ¬ (catalog.Misses directory config ∨ catalog.Loops directory config) := by
  rintro (⟨passed, place, found, name, problem, chain, isName, notPreset,
    notLoaded⟩ | ⟨passed, place, found, chain, repeated⟩)
  · obtain ⟨_, placeResolved⟩ := chain.resolved resolved
    obtain ⟨meant, isMeant⟩ := succeeds_meaning_of_resolved placeResolved isName
    rcases meaning_eq_ok_iff.mp isMeant with
      ⟨preset, isPreset, _⟩ | ⟨_, _, content, contentLoaded, _⟩
    · cases notPreset.symm.trans isPreset
    · cases notLoaded.symm.trans contentLoaded
  · exact repeated (chain.resolved resolved).1

/--
Resolving a configuration fails, with a problem of the configuration, exactly
when a chain of files comes to a name that leads nowhere or back to one of its
files.  Otherwise the result builds on nothing, decides on each rule as the last
configuration in order that mentions it, and leaves out what any of them does.
-/
theorem resolve_combines_or_fails
    {catalog : Catalog}
    (regular : catalog.Regular)
    (directory : FilePath)
    {config : Config}
    (distinct : config.DistinctRules) :
    ((∃ problem, catalog.resolve directory config = .error problem ∧
        problem.category = .configuration) ↔
      catalog.Misses directory config ∨ catalog.Loops directory config) ∧
    (¬ (catalog.Misses directory config ∨ catalog.Loops directory config) →
      ∃ result order,
        catalog.resolve directory config = .ok result ∧
          (∀ other, catalog.Expands directory config.extended other ↔
            other = order) ∧
          result.extended = [] ∧
          Config.Combines (order ++ [config]) result) := by
  cases isResult : catalog.resolve directory config with
  | error problem =>
      obtain ⟨ofConfiguration, failing⟩ :=
        Chain.start.misses_or_loops regular isResult
      refine ⟨⟨fun _ => failing, fun _ => ⟨problem, rfl, ofConfiguration⟩⟩, ?_⟩
      exact fun notFailing => (notFailing failing).elim
  | ok result =>
      have notFailing := not_misses_or_loops ⟨result, isResult⟩
      obtain ⟨order, expands, combines⟩ :=
        exists_expansion regular distinct isResult
      refine ⟨⟨?_, fun failing => (notFailing failing).elim⟩, fun _ => ?_⟩
      · rintro ⟨problem, isProblem, _⟩
        cases isProblem
      · refine ⟨result, order, rfl,
          fun other => ⟨?_, fun isOrder => isOrder ▸ expands⟩, ?_, combines⟩
        · exact fun otherExpands => otherExpands.unique expands
        · rw [resolve, resolveFrom_eq] at isResult
          obtain ⟨meanings, _, rfl⟩ := map_eq_ok_iff.mp isResult
          rfl

end Catalog

/-- A document that is no configuration is a problem of the configuration. -/
theorem Config.category_of_decode
    {data : Wire}
    {file? : Option String}
    {problem : Problem}
    (failed : decode data file? = .error problem) :
    problem.category = .configuration := by
  unfold decode at failed
  split at failed
  · cases failed
  · split at failed
    · cases failed
    · cases failed
      rfl
  · cases failed
    rfl

namespace ConfigFile

/-- A file that cannot be loaded is a problem of the configuration. -/
theorem category_of_load
    {tree : FileTree}
    {path : FilePath}
    {problem : Problem}
    (failed : load tree path = .error problem) :
    problem.category = .configuration := by
  unfold load read at failed
  split at failed
  · split at failed
    · cases failed
      rfl
    · split at failed
      · cases failed
        rfl
      · exact Config.category_of_decode failed
  · cases failed
    rfl

@[simp] theorem load_catalog
    (tree : FileTree)
    (path : FilePath) :
    (catalog tree).load path = load tree path :=
  rfl

/-- Files that share a file, and one that builds on itself. -/
def entangled : FileTree where
  workingDirectory := ⟨true, []⟩
  files :=
    [ (["base.json"], "\x7b\"rules\": \x7b\"deep-nesting\": false\x7d\x7d"),
      (["left.json"],
        "\x7b\"extends\": \"base.json\", " ++
          "\"rules\": \x7b\"deep-nesting\": \"error\"\x7d\x7d"),
      (["right.json"], "\x7b\"extends\": [\"strict\", \"base.json\"]\x7d"),
      (["loop.json"], "\x7b\"extends\": \"./loop.json\"\x7d") ]
  directories := []

/-- The configuration that builds on some names. -/
def building (names : List String) : Config :=
  { Config.empty with extended := names }

theorem regular_entangled :
    (catalog entangled).Regular := by
  constructor
  · intro path found isLoaded
    have eachDistinct :
        ∀ path ∈ entangled.paths,
          (load entangled path).toOption.all
            (fun found => decide found.DistinctRules) := by
      decide +kernel
    have isDistinct := eachDistinct path (mem_paths_of_load isLoaded)
    rw [load_catalog] at isLoaded
    rw [isLoaded] at isDistinct
    exact of_decide_eq_true isDistinct
  · exact fun _ _ => category_of_load

/-- The file that builds on itself is named by every chain from it once more. -/
theorem chain_entangled
    {passed : List FilePath}
    {name : String}
    (chain : (catalog entangled).Chain ⟨true, []⟩ (building ["loop.json"]) passed
      ⟨true, []⟩ (building [name]))
    (notPreset : Preset.ofName? name = none)
    (isThere : (catalog entangled).locate ⟨true, []⟩ name = ⟨true, ["loop.json"]⟩) :
    (catalog entangled).Chain ⟨true, []⟩ (building ["loop.json"])
      (⟨true, ["loop.json"]⟩ :: passed) ⟨true, []⟩ (building ["./loop.json"]) := by
  have reads : (load entangled ⟨true, ["loop.json"]⟩).toOption =
      some (building ["./loop.json"]) := by
    decide +kernel
  have isLoaded :
      (catalog entangled).load ((catalog entangled).locate ⟨true, []⟩ name) =
        .ok (building ["./loop.json"]) := by
    rw [isThere, load_catalog, eq_ok_of_toOption reads]
  have longer := chain.further (List.mem_singleton.mpr rfl) notPreset isLoaded
  rw [isThere] at longer
  exact longer

theorem loops_entangled :
    (catalog entangled).Loops ⟨true, []⟩ (building ["loop.json"]) := by
  have once := chain_entangled .start (by decide) (by decide)
  have again := chain_entangled once (by decide) (by decide)
  exact ⟨_, _, _, again, by decide⟩

/--
A shared file applies again where it is named again; one that builds
on itself fails.
-/
theorem resolve_entangled :
    (∃ result order,
      (catalog entangled).resolve ⟨true, []⟩
      (building ["left.json", "right.json"]) =
          .ok result ∧
        (catalog entangled).Expands ⟨true, []⟩ ["left.json", "right.json"] order ∧
        Config.Combines (order ++ [building ["left.json", "right.json"]]) result ∧
        result.setting? "deep-nesting" = some .disabled) ∧
    ∃ problem,
      (catalog entangled).resolve ⟨true, []⟩
      (building ["loop.json"]) = .error problem ∧
        problem.category = .configuration := by
  have ofNames (names : List String) :=
    Catalog.resolve_combines_or_fails regular_entangled ⟨true, []⟩
      (show (building names).DistinctRules from List.nodup_nil)
  constructor
  · have disabled :
        ((catalog entangled).resolve ⟨true, []⟩
          (building ["left.json", "right.json"])).toOption.map
            (fun result => result.setting? "deep-nesting") =
              some (some .disabled) := by
      decide +kernel
    obtain ⟨failsWhen, combinesOtherwise⟩ := ofNames ["left.json", "right.json"]
    obtain ⟨result, order, isResult, isOrder, _, combines⟩ :=
      combinesOtherwise <| by
      intro failing
      obtain ⟨problem, isProblem, _⟩ := failsWhen.mpr failing
      rw [isProblem] at disabled
      cases disabled
    rw [isResult] at disabled
    exact ⟨result, order, isResult, (isOrder order).mpr rfl, combines,
      Option.some.inj disabled⟩
  · exact (ofNames ["loop.json"]).1.mpr (.inr loops_entangled)

end ConfigFile

end DesignTokens.Lint
