import DesignTokens.Lint.Standard
import DesignTokens.Proofs.Lint.Messages
import DesignTokens.Proofs.Reading
import DesignTokens.Proofs.Text.Search

namespace DesignTokens.Lint

open DesignTokens.Text

/-!
# Findings about ignored collections

A finding tells its collection by a label, which is the name of the collection
or the name, a slash and a mode.  What is left out is decided by the text before
the first slash of the label.  That is the name of the collection whenever the
name has no slash of its own, for every rule of this library and every mode.
-/

namespace Config

/-- A mode behind the name of a collection does not matter. -/
theorem collectionName_append_mode
    (name mode : String) :
    collectionName (name ++ "/" ++ mode) = collectionName name := by
  have isLabel :
      (name ++ "/" ++ mode).toList = name.toList ++ '/' :: mode.toList := by
    simp
  rw [collectionName_eq, collectionName_eq, isLabel,
    takeWhile_append_of_not (by decide)]

/-- A name without a slash is taken whole. -/
theorem collectionName_of_no_slash
    {name : String}
    (noSlash : '/' ∉ name.toList) :
    collectionName name = name := by
  rw [collectionName, splitText, splitOn_of_not_mem noSlash]
  exact String.ofList_toList

end Config

/-- A finding is about a collection as a whole, or about one of its modes. -/
def Finding.IsAbout (finding : Finding) (collection : Collection) : Prop :=
  finding.collection = collection.name ∨
    ∃ mode : Label, finding.collection = modeLabel collection.name mode

/-- Every finding of a rule is about a collection of the theme. -/
def Rule.FindsInCollections (rule : Rule) : Prop :=
  ∀ registry theme, ∀ finding ∈ (rule.check registry theme).findings,
    ∃ collection ∈ theme.collections, finding.IsAbout collection

theorem Finding.exists_about_of_atToken
    {theme : Theme}
    {located : Located}
    (isLocated : located ∈ theme.walk)
    (text : String)
    (suggestion? : Option String) :
    ∃ collection ∈ theme.collections,
      (atToken located text suggestion?).IsAbout collection :=
  ⟨located.collection, (Theme.mem_walk_iff.mp isLocated).1,
    .inr ⟨located.mode, rfl⟩⟩

theorem Report.mem_findings_ofOutcome
    {outcome : Except Failure (List Finding)}
    {finding : Finding}
    (isFinding : finding ∈ (ofOutcome outcome).findings) :
    ∃ found, outcome = .ok found ∧ finding ∈ found := by
  cases outcome with
  | error failure => cases isFinding
  | ok found => exact ⟨found, rfl, isFinding⟩

theorem Report.mem_findings_ofFaulty
    {outcome : Except Fault (List Finding)}
    {finding : Finding}
    (isFinding : finding ∈ (ofFaulty outcome).findings) :
    ∃ found, outcome = .ok found ∧ finding ∈ found := by
  cases outcome with
  | error fault => cases isFinding
  | ok found => exact ⟨found, rfl, isFinding⟩

/--
A check of each token, or of each collection, finds what it
finds in one of them.
-/
theorem exists_of_mem_checked
    {α ε : Type}
    {items : List α}
    {check : α → Except ε (List Finding)}
    {found : List Finding}
    (areFound :
      (do
        let parts ← items.mapM check
        return parts.flatten) = .ok found)
    {finding : Finding}
    (isFinding : finding ∈ found) :
    ∃ item ∈ items, ∃ part, check item = .ok part ∧ finding ∈ part := by
  obtain ⟨parts, areParts, joined⟩ := bind_eq_ok_iff.mp areFound
  obtain rfl := pure_eq_ok_iff.mp joined
  obtain ⟨part, isPart, inPart⟩ := List.mem_flatten.mp isFinding
  obtain ⟨item, isItem, isChecked⟩ := exists_of_mem_mapM areParts isPart
  exact ⟨item, isItem, part, isChecked, inPart⟩

section Rules

theorem findsInCollections_inconsistentNaming :
    inconsistentNaming.FindsInCollections := by
  intro registry theme finding isFinding
  obtain ⟨collection, isCollection, isMixed⟩ := List.mem_flatMap.mp isFinding
  refine ⟨collection, isCollection, .inl ?_⟩
  simp only [mixedNaming] at isMixed
  split at isMixed
  · rw [List.mem_singleton.mp isMixed]
    rfl
  · cases isMixed

theorem findsInCollections_emptyCollection :
    emptyCollection.FindsInCollections := by
  intro registry theme finding isFinding
  obtain ⟨collection, isCollection, isEmpty⟩ := List.mem_flatMap.mp isFinding
  refine ⟨collection, isCollection, .inl ?_⟩
  rw [emptinessFinding] at isEmpty
  split at isEmpty
  · rw [List.mem_singleton.mp isEmpty]
    rfl
  · cases isEmpty

theorem findsInCollections_invalidTokenName :
    invalidTokenName.FindsInCollections := by
  intro registry theme finding isFinding
  obtain ⟨located, isLocated, inPath⟩ := List.mem_flatMap.mp isFinding
  obtain ⟨segment, _, inSegment⟩ := List.mem_flatMap.mp inPath
  rw [segmentFindings] at inSegment
  rcases List.mem_append.mp inSegment with isDigit | isForbidden
  · split at isDigit
    · rw [List.mem_singleton.mp isDigit]
      exact Finding.exists_about_of_atToken isLocated _ _
    · cases isDigit
  · split at isForbidden
    · rw [List.mem_singleton.mp isForbidden]
      exact Finding.exists_about_of_atToken isLocated _ _
    · cases isForbidden

theorem findsInCollections_deepNesting :
    deepNesting.FindsInCollections := by
  intro registry theme finding isFinding
  obtain ⟨located, isLocated, isDeep⟩ := List.mem_flatMap.mp isFinding
  rw [nestingFinding] at isDeep
  split at isDeep
  · rw [List.mem_singleton.mp isDeep]
    exact Finding.exists_about_of_atToken isLocated _ _
  · cases isDeep

theorem findsInCollections_missingDescription :
    missingDescription.FindsInCollections := by
  intro registry theme finding isFinding
  obtain ⟨located, isLocated, isMissing⟩ := List.mem_flatMap.mp isFinding
  rw [descriptionFinding] at isMissing
  split at isMissing
  · cases isMissing
  · rw [List.mem_singleton.mp isMissing]
    exact Finding.exists_about_of_atToken isLocated _ _

/-- Whatever a value rule checks, it reports at the token that it looks at. -/
theorem findsInCollections_valueRule
    (check : ValueCheck)
    (id name description : String) :
    (check.rule id name description).FindsInCollections := by
  intro registry theme finding isFinding
  obtain ⟨found, areFound, inFound⟩ := Report.mem_findings_ofFaulty isFinding
  obtain ⟨located, isLocated, part, isChecked, inPart⟩ :=
    exists_of_mem_checked areFound inFound
  rw [ValueCheck.findingsAt] at isChecked
  split at isChecked
  · obtain ⟨flaws, _, worded⟩ := bind_eq_ok_iff.mp isChecked
    obtain rfl := pure_eq_ok_iff.mp worded
    obtain ⟨flaw, _, rfl⟩ := List.mem_map.mp inPart
    exact Finding.exists_about_of_atToken isLocated _ _
  · obtain rfl := pure_eq_ok_iff.mp isChecked
    cases inPart

theorem findsInCollections_brokenReference :
    brokenReference.FindsInCollections := by
  intro registry theme finding isFinding
  obtain ⟨broken, isBroken, rfl⟩ := List.mem_map.mp isFinding
  obtain ⟨located, isLocated, isReported⟩ := List.mem_filterMap.mp isBroken
  refine ⟨located.collection, (Theme.mem_walk_iff.mp isLocated).1,
    .inr ⟨located.mode, ?_⟩⟩
  rw [Theme.brokenReference?] at isReported
  split at isReported
  · split at isReported
    · cases isReported
    · rw [← Option.some.inj isReported]
      rfl
  · cases isReported

theorem findsInCollections_duplicateValues :
    duplicateValues.FindsInCollections := by
  intro registry theme finding isFinding
  obtain ⟨found, areFound, inFound⟩ := Report.mem_findings_ofOutcome isFinding
  obtain ⟨collection, isCollection, part, isChecked, inPart⟩ :=
    exists_of_mem_checked areFound inFound
  obtain ⟨tree, _, paths, arePaths, inPaths⟩ :=
    exists_of_mem_checked isChecked inPart
  obtain ⟨tokens, _, worded⟩ := bind_eq_ok_iff.mp arePaths
  obtain rfl := pure_eq_ok_iff.mp worded
  obtain ⟨duplicates, _, rfl⟩ := List.mem_map.mp inPaths
  exact ⟨collection, isCollection, .inr ⟨tree.1, rfl⟩⟩

theorem findsInCollections_modeConsistency :
    modeConsistency.FindsInCollections := by
  intro registry theme finding isFinding
  obtain ⟨found, areFound, inFound⟩ := Report.mem_findings_ofFaulty isFinding
  obtain ⟨collection, isCollection, part, isChecked, inPart⟩ :=
    exists_of_mem_checked areFound inFound
  rw [gapFindingsOf] at isChecked
  split at isChecked
  · cases isChecked
  · obtain rfl := Except.ok.inj isChecked
    rw [gapFindings] at inPart
    split at inPart
    · cases inPart
    · obtain ⟨mode, _, isGap⟩ := List.mem_flatMap.mp inPart
      obtain ⟨key, _, rfl⟩ := List.mem_map.mp isGap
      exact ⟨collection, isCollection, .inr ⟨mode, rfl⟩⟩

theorem findsInCollections_missingDefaultMode :
    missingDefaultMode.FindsInCollections := by
  intro registry theme finding isFinding
  obtain ⟨found, areFound, inFound⟩ := Report.mem_findings_ofFaulty isFinding
  obtain ⟨collection, isCollection, part, isChecked, inPart⟩ :=
    exists_of_mem_checked areFound inFound
  refine ⟨collection, isCollection, .inl ?_⟩
  unfold defaultModeFindings at isChecked
  obtain ⟨hasTree, _, isChecked⟩ := bind_eq_ok_iff.mp isChecked
  split at isChecked
  · obtain rfl := pure_eq_ok_iff.mp isChecked
    cases inPart
  · obtain ⟨modes, _, isChecked⟩ := bind_eq_ok_iff.mp isChecked
    obtain rfl := pure_eq_ok_iff.mp isChecked
    rw [List.mem_singleton.mp inPart]
    rfl

/-- Leaving out repetitions adds no tokens. -/
theorem distinctHidden_subset
    (tokens : List HiddenToken) :
    distinctHidden tokens ⊆ tokens := by
  induction tokens with
  | nil => exact List.Subset.refl _
  | cons first rest inductionHypothesis =>
      rw [distinctHidden]
      apply List.cons_subset_cons
      exact List.Subset.trans (List.filter_subset_self _) inductionHypothesis

theorem findsInCollections_hiddenFromPublishing :
    hiddenFromPublishing.FindsInCollections := by
  intro registry theme finding isFinding
  obtain ⟨found, areFound, inFound⟩ := Report.mem_findings_ofFaulty isFinding
  obtain ⟨parts, areParts, worded⟩ := bind_eq_ok_iff.mp areFound
  obtain rfl := pure_eq_ok_iff.mp worded
  obtain ⟨token, isDistinct, rfl⟩ := List.mem_map.mp inFound
  obtain ⟨part, isPart, inPart⟩ :=
    List.mem_flatten.mp (distinctHidden_subset _ isDistinct)
  obtain ⟨located, isLocated, isHidden⟩ := exists_of_mem_mapM areParts isPart
  refine ⟨located.collection, (Theme.mem_walk_iff.mp isLocated).1, .inl ?_⟩
  unfold hiddenAt at isHidden
  obtain ⟨hidden, _, isHidden⟩ := bind_eq_ok_iff.mp isHidden
  split at isHidden
  · simp only at isHidden
    split at isHidden
    · obtain rfl := pure_eq_ok_iff.mp isHidden
      rw [List.mem_singleton.mp inPart]
      rfl
    · cases isHidden
  · obtain rfl := pure_eq_ok_iff.mp isHidden
    cases inPart

/--
Every rule of this library but the one on cycles reports about
collections of the theme.
-/
theorem findsInCollections_of_mem_standardRules
    {rule : Rule}
    (isStandard : rule ∈ standardRules) :
    rule = circularReference ∨ rule.FindsInCollections := by
  simp only [standardRules, List.mem_cons, List.not_mem_nil, or_false] at isStandard
  rcases isStandard with
    rfl | rfl | rfl | rfl | rfl | rfl | rfl | rfl | rfl | rfl | rfl | rfl |
    rfl | rfl | rfl | rfl | rfl | rfl | rfl | rfl
  · exact .inr findsInCollections_inconsistentNaming
  · exact .inr findsInCollections_invalidTokenName
  · exact .inr findsInCollections_deepNesting
  · exact .inr findsInCollections_emptyCollection
  · exact .inr findsInCollections_missingDescription
  iterate 9 exact .inr (findsInCollections_valueRule _ _ _ _)
  · exact .inr findsInCollections_brokenReference
  · exact .inl rfl
  · exact .inr findsInCollections_duplicateValues
  · exact .inr findsInCollections_modeConsistency
  · exact .inr findsInCollections_missingDefaultMode
  · exact .inr findsInCollections_hiddenFromPublishing

/-- A finding about a cycle names no collection. -/
theorem collection_of_circularReference
    {registry : Registry}
    {theme : Theme}
    {finding : Finding}
    (isFinding : finding ∈ (circularReference.check registry theme).findings) :
    finding.collection = .null := by
  obtain ⟨found, areFound, inFound⟩ := Report.mem_findings_ofFaulty isFinding
  rw [cycleFindings] at areFound
  split at areFound
  · cases areFound
  · obtain rfl := Except.ok.inj areFound
    obtain ⟨cycle, _, rfl⟩ := List.mem_map.mp inFound
    rfl

end Rules

/--
Rules tell the collections of their findings by texts when the
collections have names.
-/
theorem namesCollections_of_mem_standardRules
    {rule : Rule}
    (isStandard : rule ∈ standardRules)
    {theme : Theme}
    (named : ∀ collection ∈ theme.collections, ∃ name, collection.name = .str name)
    (registry : Registry) :
    rule.NamesCollections registry theme := by
  intro finding isFinding
  rcases findsInCollections_of_mem_standardRules isStandard with rfl | findsIn
  · exact .inl (collection_of_circularReference isFinding)
  · obtain ⟨collection, isCollection, isAbout⟩ :=
      findsIn registry theme finding isFinding
    rcases isAbout with isName | ⟨mode, isLabel⟩
    · obtain ⟨name, isText⟩ := named collection isCollection
      exact .inr ⟨name, isName.trans isText⟩
    · exact .inr ⟨_, isLabel⟩

/--
What is ignored about a collection is decided by its name up to the first slash.
-/
theorem Finding.IsAbout.ignoresCollection
    {finding : Finding}
    {collection : Collection}
    (isAbout : finding.IsAbout collection)
    {name : String}
    (isName : collection.name = .str name)
    (config : Config) :
    config.ignoresCollection finding.collection =
      config.ignoreCollections.contains (Config.collectionName name) := by
  rcases isAbout with isWhole | ⟨mode, isLabel⟩
  · rw [isWhole, isName]
    rfl
  · rw [isLabel, isName, modeLabel, Config.ignoresCollection]
    exact congrArg _ (Config.collectionName_append_mode name mode.display)

namespace Linter

theorem placeRule_of_new
    {rule : Rule}
    {rules : List Rule}
    (isNew : rule.id ∉ rules.map Rule.id) :
    placeRule rule rules = rules ++ [rule] := by
  induction rules with
  | nil => rfl
  | cons first rest inductionHypothesis =>
      rw [List.map_cons, List.mem_cons, not_or] at isNew
      obtain ⟨notFirst, notLater⟩ := isNew
      rw [placeRule, if_neg (Ne.symm notFirst), inductionHypothesis notLater]
      rfl

/-- Rules with distinct identifiers are registered as they are given. -/
theorem ofRules_eq
    {rules : List Rule}
    (distinct : (rules.map Rule.id).Nodup)
    (config : Config)
    (registry : Registry) :
    ofRules rules config registry = ⟨rules, config, registry⟩ := by
  induction rules using List.reverseRecOn with
  | nil => rfl
  | append_singleton earlier rule inductionHypothesis =>
      rw [List.map_append] at distinct
      obtain ⟨earlierDistinct, _, apart⟩ := List.nodup_append.mp distinct
      have isNew : rule.id ∉ earlier.map Rule.id := by
        intro isThere
        exact apart _ isThere rule.id (List.mem_singleton_self _) rfl
      rw [ofRules, List.foldl_append, ← ofRules,
        inductionHypothesis earlierDistinct, List.foldl_cons, List.foldl_nil,
        register, placeRule_of_new isNew]

theorem mem_messages_lint_iff
    {linter : Linter}
    {theme : Theme}
    {message : Message} :
    message ∈ (linter.lint theme).messages ↔
      message ∈ linter.reported theme ∧ linter.config.ignores message = false := by
  rw [lint, List.mem_mergeSort, List.mem_filter, Bool.not_eq_true']

/-- What an enabled rule finds without failing is reported. -/
theorem messageOf_mem_reported
    {linter : Linter}
    {theme : Theme}
    {rule : Rule}
    (isRule : rule ∈ linter.rules)
    (isEnabled : linter.config.enables rule.id = true)
    (finishes : (rule.check linter.registry theme).failure? = none)
    {finding : Finding}
    (isFinding : finding ∈ (rule.check linter.registry theme).findings) :
    messageOf linter.config rule finding ∈ linter.reported theme := by
  apply List.mem_flatMap.mpr
  refine ⟨rule, List.mem_filter.mpr ⟨isRule, isEnabled⟩, ?_⟩
  simp only [messagesOf, finishes]
  exact List.mem_map_of_mem isFinding

/--
In a theme whose collections have names, every finding of an enabled rule of
this library is about a collection of the theme, unless it is about a cycle.
Its message is left out exactly when the part of the name of this collection
before the first slash is ignored, which is the name itself unless it holds a
slash.
-/
theorem lint_drops_ignored_collections
    (config : Config)
    (registry : Registry)
    {theme : Theme}
    (named :
      ∀ collection ∈ theme.collections, ∃ name, collection.name = .str name) :
    ∃ result,
      (ofRules standardRules config registry).run theme = .ok result ∧
        ∀ rule ∈ standardRules, config.enables rule.id = true →
          (rule.check registry theme).failure? = none →
            ∀ finding ∈ (rule.check registry theme).findings,
              ((rule = circularReference ∧ finding.collection = .null) ∨
                ∃ collection ∈ theme.collections, finding.IsAbout collection) ∧
              (config.ignoresPath finding.path? = false →
                ∀ collection ∈ theme.collections,
                  ∀ name, collection.name = .str name →
                  finding.IsAbout collection →
                    ('/' ∉ name.toList →
                      (messageOf config rule finding ∉ result.messages ↔
                        name ∈ config.ignoreCollections)) ∧
                    (messageOf config rule finding ∉ result.messages ↔
                      Config.collectionName name ∈ config.ignoreCollections)) := by
  have distinct : (standardRules.map Rule.id).Nodup := by decide
  rw [ofRules_eq distinct]
  refine ⟨_, run_eq_ok (fun rule isRule => ?_), ?_⟩
  · exact namesCollections_of_mem_standardRules isRule named registry
  · intro rule isRule isEnabled finishes finding isFinding
    constructor
    · rcases findsInCollections_of_mem_standardRules isRule with rfl | findsIn
      · exact .inl ⟨rfl, collection_of_circularReference isFinding⟩
      · exact .inr (findsIn registry theme finding isFinding)
    · intro notIgnored collection _ name isName isAbout
      have isDropped :
          messageOf config rule finding ∉
              (lint ⟨standardRules, config, registry⟩ theme).messages ↔
            Config.collectionName name ∈ config.ignoreCollections := by
        have isReported :=
          @messageOf_mem_reported ⟨standardRules, config, registry⟩ theme rule
            isRule isEnabled finishes finding isFinding
        have isIgnored :
            config.ignores (messageOf config rule finding) =
              config.ignoreCollections.contains (Config.collectionName name) := by
          rw [← isAbout.ignoresCollection isName]
          exact congrArg (· || _) notIgnored
        rw [mem_messages_lint_iff, isIgnored, List.contains_eq_mem]
        simp [isReported]
      refine ⟨fun noSlash => ?_, isDropped⟩
      rw [isDropped, Config.collectionName_of_no_slash noSlash]

/-- A collection without tokens. -/
def vacant (name : String) : Collection :=
  ⟨.str name, [.str "light"], .str "light", [], .null⟩

/-- A theme of one collection without tokens. -/
def vacantTheme (name : String) : Theme :=
  ⟨.str "vacant", [vacant name], none, .null⟩

/-- What is found in a collection without tokens. -/
def vacancy (name : String) : Finding :=
  Finding.atCollection (vacant name) ("Collection \"" ++ name ++ "\" has no tokens")
    "Remove empty collections or add tokens"

/-- A configuration that ignores one name. -/
def ignoring (name : String) : Config :=
  { Config.empty with ignoreCollections := [name] }

theorem vacancy_mem_findings
    (name : String) :
    vacancy name ∈ (emptyCollection.check .standard (vacantTheme name)).findings :=
  List.mem_singleton_self _

/-- The finding about a collection whose name has no slash is left out. -/
theorem lint_drops_drafts :
    (∀ collection ∈ (vacantTheme "drafts").collections,
      ∃ name, collection.name = .str name) ∧
      ∃ result,
        (ofRules standardRules (ignoring "drafts") .standard).run
          (vacantTheme "drafts") =
            .ok result ∧
          messageOf (ignoring "drafts") emptyCollection (vacancy "drafts") ∉
            result.messages := by
  have named : ∀ collection ∈ (vacantTheme "drafts").collections,
      ∃ name, collection.name = .str name := by
    intro collection isCollection
    obtain rfl := List.mem_singleton.mp isCollection
    exact ⟨"drafts", rfl⟩
  obtain ⟨result, isResult, drops⟩ :=
    lint_drops_ignored_collections (ignoring "drafts") .standard named
  have isStandard : emptyCollection ∈ standardRules := by simp [standardRules]
  obtain ⟨_, isDropped⟩ :=
    drops emptyCollection isStandard (by decide) rfl _
      (vacancy_mem_findings "drafts")
  obtain ⟨byName, _⟩ :=
    isDropped rfl (vacant "drafts") (List.mem_singleton_self _) "drafts" rfl
      (.inl rfl)
  exact ⟨named, result, isResult, (byName (by decide)).mpr (by decide)⟩

/--
The finding about a collection whose name has a slash is kept when the name is
ignored, and left out when the part before the slash is.
-/
theorem lint_keeps_slashed :
    (vacancy "brand/colors").IsAbout (vacant "brand/colors") ∧
      messageOf (ignoring "brand/colors") emptyCollection (vacancy "brand/colors") ∈
        ((standard (ignoring "brand/colors")).lint
          (vacantTheme "brand/colors")).messages ∧
      messageOf (ignoring "brand") emptyCollection (vacancy "brand/colors") ∉
        ((standard (ignoring "brand")).lint
          (vacantTheme "brand/colors")).messages := by
  have distinct : (standardRules.map Rule.id).Nodup := by decide
  refine ⟨.inl rfl, ?_, ?_⟩
  · rw [standard, ofRules_eq distinct, mem_messages_lint_iff]
    constructor
    · apply messageOf_mem_reported _ (by decide) rfl
        (vacancy_mem_findings "brand/colors")
      simp [standardRules]
    · decide +kernel
  · rw [standard, ofRules_eq distinct, mem_messages_lint_iff]
    rintro ⟨_, isKept⟩
    exact absurd isKept (by decide +kernel)

end Linter

end DesignTokens.Lint
