import DesignTokens.Proofs.Lint.Registration
import DesignTokens.Proofs.Sorting
import DesignTokens.Proofs.Text.Search
import Mathlib.Data.List.Nodup

namespace DesignTokens.Lint

open DesignTokens.Text

/-!
# Messages of a run

A run sorts what its rules contribute, errors first.  The sort is stable, so
taking out the messages of one rule commutes with it, and what a rule
contributes depends on no other rule.
-/

namespace Message

/-- The messages of one severity. -/
def ofSeverity (severity : Severity) (messages : List Message) : List Message :=
  messages.filter (fun message => message.severity == severity)

/-- Errors, then warnings, then remarks, each in their order. -/
def bySeverity (messages : List Message) : List Message :=
  ofSeverity .error messages ++
    (ofSeverity .warning messages ++ ofSeverity .info messages)

theorem ofSeverity_cons
    (severity : Severity)
    (first : Message)
    (rest : List Message) :
    ofSeverity severity (first :: rest) =
      if first.severity = severity then first :: ofSeverity severity rest
      else ofSeverity severity rest := by
  simp [ofSeverity, List.filter_cons]

theorem isNoLater_trans
    (first second third : Message)
    (firstStep : first.isNoLater second = true)
    (secondStep : second.isNoLater third = true) :
    first.isNoLater third = true := by
  simp only [isNoLater, decide_eq_true_eq] at *
  exact Nat.le_trans firstStep secondStep

theorem isNoLater_total
    (first second : Message) :
    (first.isNoLater second || second.isNoLater first) = true := by
  simp only [isNoLater, Bool.or_eq_true, decide_eq_true_eq]
  exact Nat.le_total _ _

/-- Leaving out messages commutes with the order of severities. -/
theorem filter_bySeverity
    (keep : Message → Bool)
    (messages : List Message) :
    (bySeverity messages).filter keep = bySeverity (messages.filter keep) := by
  have commutes (severity : Severity) : (ofSeverity severity messages).filter keep =
      ofSeverity severity (messages.filter keep) :=
    List.filter_comm ..
  rw [bySeverity, List.filter_append, List.filter_append, commutes, commutes,
    commutes]
  rfl

/-- Messages in the order of severities are as they are. -/
theorem bySeverity_of_pairwise
    {messages : List Message}
    (sorted :
      messages.Pairwise (fun first second => first.isNoLater second = true)) :
    bySeverity messages = messages := by
  induction messages with
  | nil => rfl
  | cons first rest inductionHypothesis =>
      obtain ⟨isFirst, restSorted⟩ := List.pairwise_cons.mp sorted
      have noneBefore (severity : Severity) (comesBefore : severity.rank <
          first.severity.rank) : ofSeverity severity rest = [] := by
        apply List.filter_eq_nil_iff.mpr
        intro message isMessage
        have notLater := isFirst message isMessage
        simp only [isNoLater, decide_eq_true_eq] at notLater
        simp only [beq_iff_eq]
        rintro rfl
        omega
      calc bySeverity (first :: rest)
        _ = first :: bySeverity rest := by
          unfold bySeverity
          simp only [ofSeverity_cons]
          cases isSeverity : first.severity with
          | error => simp
          | warning =>
              simp [noneBefore .error (by simp [isSeverity, Severity.rank])]
          | info =>
              simp [noneBefore .error (by simp [isSeverity, Severity.rank]),
                noneBefore .warning (by simp [isSeverity, Severity.rank])]
        _ = first :: rest := by rw [inductionHypothesis restSorted]

/-- Sorting keeps the messages of one severity in their order. -/
theorem ofSeverity_mergeSort
    (severity : Severity)
    (messages : List Message) :
    ofSeverity severity (messages.mergeSort isNoLater) =
      ofSeverity severity messages := by
  apply filter_mergeSort isNoLater_trans isNoLater_total
  intro first second isFirst isSecond
  rw [isNoLater, eq_of_beq isFirst, eq_of_beq isSecond]
  simp

/-- Sorting is a stable sort by severity. -/
theorem mergeSort_isNoLater
    (messages : List Message) :
    messages.mergeSort isNoLater = bySeverity messages := by
  have sorted := List.pairwise_mergeSort isNoLater_trans isNoLater_total messages
  rw [← bySeverity_of_pairwise sorted, bySeverity, bySeverity, ofSeverity_mergeSort,
    ofSeverity_mergeSort, ofSeverity_mergeSort]

end Message

namespace Finding

/-- What stands before the first slash of the label of the collection. -/
def collectionName? (finding : Finding) : Option String :=
  match finding.collection with
  | .str label => some (String.ofList (label.toList.takeWhile (fun c => c != '/')))
  | _ => none

/--
A finding is left out when a pattern matches its path, or when the name of its
collection is listed.
-/
def IsIgnored (config : Config) (finding : Finding) : Prop :=
  (∃ path ∈ finding.path?,
    ∃ pattern ∈ config.ignorePatterns, matchesPattern pattern path = true) ∨
  ∃ name ∈ finding.collectionName?, name ∈ config.ignoreCollections

instance (config : Config) (finding : Finding) :
    Decidable (finding.IsIgnored config) :=
  inferInstanceAs (Decidable (_ ∨ _))

/-- The message of a rule about a finding. -/
def toMessage (finding : Finding) (rule : String) (severity : Severity) :
    Message where
  rule := rule
  severity := severity
  text := finding.text
  path? := finding.path?
  collection := finding.collection
  suggestion? := finding.suggestion?

end Finding

/--
What a rule contributes to a run, by itself: nothing if it is disabled, one
error if it fails, and otherwise a message about each finding that is not left
out.  A severity that is set for the rule goes before that of a finding, which
goes before that of the rule.
-/
def contribution
    (config : Config)
    (registry : Registry)
    (theme : Theme)
    (rule : Rule) : List Message :=
  let report := rule.check registry theme
  let kept := report.findings.filter (fun finding => ¬ finding.IsIgnored config)
  match config.setting? rule.id, report.failure? with
  | some .disabled, _ => []
  | _, some reason =>
      [{ rule := rule.id
         severity := .error
         text := "Rule \"" ++ rule.id ++ "\" threw an error: " ++ reason
         path? := none
         collection := .null
         suggestion? := none }]
  | some (.severity level), none =>
      kept.map fun finding => finding.toMessage rule.id level
  | _, none =>
      kept.map fun finding =>
        finding.toMessage rule.id (finding.severity?.getD rule.defaultSeverity)

/-- Every message of a contribution carries the identifier of its rule. -/
theorem rule_of_mem_contribution
    {config : Config}
    {registry : Registry}
    {theme : Theme}
    {rule : Rule}
    {message : Message}
    (isMessage : message ∈ contribution config registry theme rule) :
    message.rule = rule.id := by
  unfold contribution at isMessage
  simp only at isMessage
  split at isMessage
  · cases isMessage
  · rw [List.mem_singleton.mp isMessage]
  · obtain ⟨finding, _, rfl⟩ := List.mem_map.mp isMessage
    rfl
  · obtain ⟨finding, _, rfl⟩ := List.mem_map.mp isMessage
    rfl

/--
Configurations that agree about a rule and about what is left out give it
one contribution.
-/
theorem contribution_congr
    {first second : Config}
    {rule : Rule}
    (sameSetting : first.setting? rule.id = second.setting? rule.id)
    (samePatterns : first.ignorePatterns = second.ignorePatterns)
    (sameCollections : first.ignoreCollections = second.ignoreCollections)
    (registry : Registry)
    (theme : Theme) :
    contribution first registry theme rule =
      contribution second registry theme rule := by
  have sameIgnored (finding : Finding) :
      finding.IsIgnored first ↔ finding.IsIgnored second := by
    rw [Finding.IsIgnored, Finding.IsIgnored, samePatterns, sameCollections]
  simp only [contribution, sameSetting, sameIgnored]

namespace Config

/-- The name in a label is what stands before its first slash. -/
theorem collectionName_eq
    (label : String) :
    collectionName label =
      String.ofList (label.toList.takeWhile (fun c => c != '/')) := by
  rw [collectionName, splitText]
  have isHead := head?_splitOn '/' label.toList
  cases pieces : splitOn '/' label.toList with
  | nil => simp [pieces] at isHead
  | cons piece more =>
      rw [pieces] at isHead
      rw [← Option.some.inj isHead]
      rfl

end Config

namespace Linter

/--
The messages that a run leaves out are those about findings that are left out.
-/
theorem ignores_messageOf_iff
    (config : Config)
    (rule : Rule)
    (finding : Finding) :
    config.ignores (messageOf config rule finding) = true ↔
      finding.IsIgnored config := by
  rw [Config.ignores, Bool.or_eq_true]
  apply or_congr
  · cases isPath : finding.path? with
    | none => simp [Config.ignoresPath, messageOf, isPath]
    | some path => simp [Config.ignoresPath, messageOf, isPath]
  · cases isCollection : finding.collection with
    | str label =>
        simp [Config.ignoresCollection, Finding.collectionName?, messageOf,
          isCollection, Config.collectionName_eq]
    | _ =>
        simp [Config.ignoresCollection, Finding.collectionName?, messageOf,
          isCollection]

/--
What is left of the messages about findings are the messages about what
is left of them.
-/
theorem filter_map_messageOf
    (config : Config)
    (rule : Rule)
    (findings : List Finding) :
    (findings.map (messageOf config rule)).filter
      (fun message => !config.ignores message) =
      (findings.filter (fun finding => ¬ finding.IsIgnored config)).map
        (messageOf config rule) := by
  rw [List.filter_map]
  congr 1
  apply List.filter_congr
  intro finding _
  rw [Bool.eq_iff_iff]
  simp [← ignores_messageOf_iff config rule finding]

/-- What is left of the messages of a rule is its contribution. -/
theorem filter_messagesOf
    (linter : Linter)
    (theme : Theme)
    {rule : Rule}
    (isEnabled : linter.config.enables rule.id = true) :
    (linter.messagesOf theme rule).filter
      (fun message => !linter.config.ignores message) =
      contribution linter.config linter.registry theme rule := by
  have notDisabled : linter.config.setting? rule.id ≠ some .disabled :=
    bne_iff_ne.mp isEnabled
  unfold messagesOf contribution
  simp only
  cases (rule.check linter.registry theme).failure? with
  | some reason =>
      have isKept :
          [failureMessage rule reason].filter
              (fun message => !linter.config.ignores message) =
            [failureMessage rule reason] :=
        rfl
      rw [isKept]
      cases isSetting : linter.config.setting? rule.id with
      | none => rfl
      | some setting =>
          cases setting with
          | disabled => exact (notDisabled isSetting).elim
          | enabled => rfl
          | severity level => rfl
  | none =>
      simp only [filter_map_messageOf]
      cases isSetting : linter.config.setting? rule.id with
      | none => simp [messageOf, Config.severity?, Finding.toMessage, isSetting]
      | some setting =>
          cases setting with
          | disabled => exact (notDisabled isSetting).elim
          | enabled =>
              simp [messageOf, Config.severity?, Finding.toMessage, isSetting]
          | severity level =>
              simp [messageOf, Config.severity?, Finding.toMessage, isSetting]

/--
A run gives the contributions of the rules in their order, sorted by severity.
-/
theorem messages_lint
    (linter : Linter)
    (theme : Theme) :
    (linter.lint theme).messages =
      Message.bySeverity
        (linter.rules.flatMap
          (contribution linter.config linter.registry theme)) := by
  have contributions :
      (linter.reported theme).filter
        (fun message => !linter.config.ignores message) =
          linter.rules.flatMap
            (contribution linter.config linter.registry theme) := by
    unfold reported enabledRules
    induction linter.rules with
    | nil => rfl
    | cons rule rest inductionHypothesis =>
        rw [List.flatMap_cons, ← inductionHypothesis]
        cases isEnabled : linter.config.enables rule.id with
        | true =>
            simp only [List.filter_cons, isEnabled, ↓reduceIte, List.flatMap_cons,
              List.filter_append, filter_messagesOf linter theme isEnabled]
        | false =>
            have isDisabled : linter.config.setting? rule.id = some .disabled := by
              simpa [Config.enables] using isEnabled
            simp [isEnabled, contribution, isDisabled]
  rw [lint, Message.mergeSort_isNoLater, contributions]

/--
Among the contributions of rules, those of one identifier come from the
rule that has it.
-/
theorem filter_contributions
    (config : Config)
    (registry : Registry)
    (theme : Theme)
    (id : String)
    {rules : List Rule}
    (distinct : (rules.map Rule.id).Nodup) :
    (rules.flatMap (contribution config registry theme)).filter
        (fun message => message.rule == id) =
      ((rules.find? (fun rule => rule.id == id)).map
        (contribution config registry theme)).getD [] := by
  induction rules with
  | nil => rfl
  | cons first rest inductionHypothesis =>
      obtain ⟨isNew, restDistinct⟩ := List.nodup_cons.mp distinct
      rw [List.flatMap_cons, List.filter_append, inductionHypothesis restDistinct]
      by_cases isFirst : first.id = id
      · have noneLater : rest.find? (fun rule => rule.id == id) = none := by
          apply List.find?_eq_none.mpr
          intro later isLater sameId
          exact isNew (isFirst ▸ beq_iff_eq.mp sameId ▸ List.mem_map_of_mem isLater)
        have allKept :
            (contribution config registry theme first).filter
                (fun message => message.rule == id) =
              contribution config registry theme first := by
          apply List.filter_eq_self.mpr
          intro message isMessage
          simp [rule_of_mem_contribution isMessage, isFirst]
        simp [allKept, noneLater, isFirst]
      · have noneKept :
            (contribution config registry theme first).filter
                (fun message => message.rule == id) = [] := by
          apply List.filter_eq_nil_iff.mpr
          intro message isMessage
          simp [rule_of_mem_contribution isMessage, isFirst]
        simp [noneKept, isFirst]

/-- The messages of an identifier are the contribution of the rule that has it. -/
theorem ofRule_lint
    {linter : Linter}
    (distinct : linter.ids.Nodup)
    (theme : Theme)
    (id : String) :
    (linter.lint theme).ofRule id =
      Message.bySeverity
        (((linter.rule? id).map
          (contribution linter.config linter.registry theme)).getD []) := by
  rw [Result.ofRule, messages_lint, Message.filter_bySeverity,
    filter_contributions _ _ _ _ distinct]
  rfl

end Linter

/-- Every finding of a rule names its collection by a text, or names none. -/
def Rule.NamesCollections (rule : Rule) (registry : Registry) (theme : Theme) :
    Prop :=
  ∀ finding ∈ (rule.check registry theme).findings,
    finding.collection = .null ∨ ∃ label, finding.collection = .str label

namespace Linter

/-- A run whose rules name collections by texts ends with its messages. -/
theorem run_eq_ok
    {linter : Linter}
    {theme : Theme}
    (named : ∀ rule ∈ linter.rules, rule.NamesCollections linter.registry theme) :
    linter.run theme = .ok (linter.lint theme) := by
  have comparable : ∀ message ∈ linter.reported theme,
      message.collection = .null ∨ ∃ label, message.collection = .str label := by
    intro message isMessage
    obtain ⟨rule, isRule, isReported⟩ := List.mem_flatMap.mp isMessage
    unfold messagesOf at isReported
    simp only at isReported
    split at isReported
    · rw [List.mem_singleton.mp isReported]
      exact .inl rfl
    · obtain ⟨finding, isFinding, rfl⟩ := List.mem_map.mp isReported
      exact named rule (List.mem_of_mem_filter isRule) finding isFinding
  have noFault : linter.fault? theme = none := by
    apply List.findSome?_eq_none_iff.mpr
    intro message isMessage
    unfold Config.messageFault?
    split
    · rfl
    · rcases comparable message isMessage with isNull | ⟨label, isText⟩
      · rw [isNull]
      · rw [isText]
  rw [run, noFault]

/-- Changes leave the configuration and the registry as they are. -/
theorem reached_eq
    (config : Config)
    (registry : Registry)
    (changes : List Change) :
    reached config registry changes =
      ⟨(reached config registry changes).rules, config, registry⟩ := by
  induction changes using List.reverseRecOn with
  | nil => rfl
  | append_singleton earlier change inductionHypothesis =>
      rw [reached_concat, inductionHypothesis]
      cases change <;> rfl

@[simp] theorem config_reached
    (config : Config)
    (registry : Registry)
    (changes : List Change) :
    (reached config registry changes).config = config := by
  rw [reached_eq]

@[simp] theorem registry_reached
    (config : Config)
    (registry : Registry)
    (changes : List Change) :
    (reached config registry changes).registry = registry := by
  rw [reached_eq]

/-- Where identifiers are distinct, a rule is found under its identifier. -/
theorem rule?_eq_some_iff
    {linter : Linter}
    (distinct : linter.ids.Nodup)
    {id : String}
    {rule : Rule} :
    linter.rule? id = some rule ↔ rule ∈ linter.rules ∧ rule.id = id := by
  have isOfId {found : Rule} (isFound : linter.rule? id = some found) :
      found ∈ linter.rules ∧ found.id = id :=
    ⟨List.mem_of_find?_eq_some isFound, by simpa using List.find?_some isFound⟩
  constructor
  · exact isOfId
  · rintro ⟨isRule, rfl⟩
    obtain ⟨found, isFound⟩ : ∃ found, linter.rule? rule.id = some found := by
      apply Option.isSome_iff_exists.mp
      exact List.find?_isSome.mpr ⟨rule, isRule, beq_self_eq_true _⟩
    obtain ⟨isThere, sameId⟩ := isOfId isFound
    have isSame : found = rule :=
      List.inj_on_of_nodup_map distinct isThere isRule sameId
    rw [isFound, isSame]

/--
Two histories that leave a rule in force alike lead to linters
that find it alike.
-/
theorem rule?_reached_congr
    {config other : Config}
    {registry : Registry}
    {changes otherChanges : List Change}
    {id : String}
    (sameInForce :
      ∀ rule, rule.id = id → (InForce changes rule ↔ InForce otherChanges rule)) :
    (reached config registry changes).rule? id =
      (reached other registry otherChanges).rule? id := by
  have follows := follows_reached config registry changes
  have otherFollows := follows_reached other registry otherChanges
  apply Option.ext
  intro rule
  rw [rule?_eq_some_iff follows.distinct, rule?_eq_some_iff otherFollows.distinct,
    follows.inForce, otherFollows.inForce]
  exact and_congr_left (sameInForce rule)

/-- The messages of a rule depend on no other rule. -/
theorem ofRule_lint_reached_congr
    {config other : Config}
    {changes otherChanges : List Change}
    {id : String}
    (sameInForce :
      ∀ rule, rule.id = id → (InForce changes rule ↔ InForce otherChanges rule))
    (sameSetting : config.setting? id = other.setting? id)
    (samePatterns : config.ignorePatterns = other.ignorePatterns)
    (sameCollections : config.ignoreCollections = other.ignoreCollections)
    (registry : Registry)
    (theme : Theme) :
    ((reached config registry changes).lint theme).ofRule id =
      ((reached other registry otherChanges).lint theme).ofRule id := by
  have follows := follows_reached config registry changes
  have otherFollows := follows_reached other registry otherChanges
  rw [ofRule_lint follows.distinct, ofRule_lint otherFollows.distinct,
    rule?_reached_congr sameInForce, config_reached, registry_reached,
    config_reached, registry_reached]
  cases isRule : (reached other registry otherChanges).rule? id with
  | none => rfl
  | some rule =>
      obtain ⟨_, rfl⟩ := (rule?_eq_some_iff otherFollows.distinct).mp isRule
      simp only [Option.map_some, Option.getD_some]
      rw [contribution_congr sameSetting samePatterns sameCollections]

/--
A linter that is reached by changes runs the rules in force, in the order in
which they got ahead of each other.  Its messages are the contributions of these
rules, sorted by severity in a stable way, and those of one rule are the same
under every linter and configuration that agree about this rule and about what
is left out.
-/
theorem lint_isolates_rules
    (config : Config)
    (registry : Registry)
    (changes : List Change)
    (theme : Theme) :
    (reached config registry changes).Follows changes ∧
    ((reached config registry changes).lint theme).messages =
      Message.bySeverity
        ((reached config registry changes).rules.flatMap
          (contribution config registry theme)) ∧
    ((∀ rule, InForce changes rule → rule.NamesCollections registry theme) →
      (reached config registry changes).run theme =
        .ok ((reached config registry changes).lint theme)) ∧
    ∀ (other : Config) (otherChanges : List Change) (id : String),
      (∀ rule, rule.id = id → (InForce changes rule ↔ InForce otherChanges rule)) →
      config.setting? id = other.setting? id →
      config.ignorePatterns = other.ignorePatterns →
      config.ignoreCollections = other.ignoreCollections →
        ((reached config registry changes).lint theme).ofRule id =
          ((reached other registry otherChanges).lint theme).ofRule id := by
  have follows := follows_reached config registry changes
  refine ⟨follows, ?_, ?_, ?_⟩
  · rw [messages_lint, config_reached, registry_reached]
  · intro named
    apply run_eq_ok
    intro rule isRule
    rw [registry_reached]
    exact named rule ((follows.inForce rule).mp isRule)
  · intro other otherChanges id sameInForce sameSetting samePatterns sameCollections
    exact ofRule_lint_reached_congr sameInForce sameSetting samePatterns
      sameCollections registry theme

/-- A rule that reports and then fails. -/
def noisy : Rule where
  id := "noisy"
  name := "Noisy"
  description := "Reports and fails"
  defaultSeverity := .warning
  check _ _ := ⟨[⟨"lost", none, .null, none, none⟩], some "boom"⟩

/-- A rule that reports twice, the second time with a severity of its own. -/
def calm : Rule where
  id := "calm"
  name := "Calm"
  description := "Reports twice"
  defaultSeverity := .info
  check _ _ := .ofFindings
    [⟨"second", none, .null, none, none⟩,
      ⟨"first", none, .null, none, some .warning⟩]

/--
A rule that reports about a color, with a severity of its own, about an old
one, and a draft.
-/
def loud : Rule where
  id := "loud"
  name := "Loud"
  description := "Reports three times"
  defaultSeverity := .error
  check _ _ := .ofFindings
    [ ⟨"bright", some "color.red", .str "brand/light", none, some .warning⟩,
      ⟨"old", some "legacy.red", .str "brand/light", none, none⟩,
      ⟨"draft", some "color.red", .str "drafts/light", none, none⟩ ]

/--
A configuration that sets severities for the rule that fails and for one that
does not, and leaves out old colors and drafts.
-/
def lenient : Config where
  extended := []
  rules := [("noisy", .severity .info), ("loud", .severity .info)]
  ignorePatterns := ["legacy.*"]
  ignoreCollections := ["drafts"]

/-- A configuration that says nothing about rules and leaves out the same. -/
def silent : Config :=
  { lenient with rules := [] }

/-- A theme without collections. -/
def blank : Theme := ⟨.str "Blank", [], none, .null⟩

/-- Three rules, registered one after the other. -/
def crowd : List Change :=
  [.register noisy, .register loud, .register calm]

/-- Of the findings about colors, old ones and drafts are left out. -/
theorem contribution_loud :
    contribution lenient ⟨[], []⟩ blank loud =
      [⟨"loud", .info, "bright", some "color.red", .str "brand/light", none⟩] := by
  have keepsBright : matchesPattern "legacy.*" "color.red" = false := by
    simp [matchesPattern, pieces, matchPieces, Piece.accepts]
  have dropsOld : matchesPattern "legacy.*" "legacy.red" = true := by
    simp [matchesPattern, pieces, matchPieces, Piece.accepts]
  have isSet : lenient.setting? loud.id = some (.severity .info) := rfl
  unfold contribution
  rw [isSet]
  simp [loud, lenient, Report.ofFindings, Finding.IsIgnored,
    Finding.collectionName?, keepsBright, dropsOld, Finding.toMessage]

/--
A rule that fails leaves one error, a severity that is set replaces that of a
finding, what is to be left out is, and the messages of another rule are the
same as when it is alone.
-/
theorem lint_noisy_calm :
    ((reached lenient ⟨[], []⟩ crowd).run blank =
      .ok ((reached lenient ⟨[], []⟩ crowd).lint blank)) ∧
    (((reached lenient ⟨[], []⟩ crowd).lint blank).messages.map
        fun message => (message.rule, message.severity, message.text)) =
      [ ("noisy", .error, "Rule \"noisy\" threw an error: boom"),
        ("calm", .warning, "first"),
        ("loud", .info, "bright"),
        ("calm", .info, "second") ] ∧
    ((reached lenient ⟨[], []⟩ crowd).lint blank).ofRule "calm" =
      ((reached silent ⟨[], []⟩ [.register calm]).lint blank).ofRule "calm" := by
  obtain ⟨_, sorted, completes, isolated⟩ :=
    lint_isolates_rules lenient ⟨[], []⟩ crowd blank
  have inForce_concat (earlier : List Change) (last rule : Rule) :
      InForce (earlier ++ [.register last]) rule ↔
        last = rule ∨ (InForce earlier rule ∧ last.id ≠ rule.id) := by
    rw [inForce_concat_iff, Change.register.injEq]
    rfl
  refine ⟨completes ?_, ?_,
    isolated silent [.register calm] "calm" ?_ (by decide) rfl rfl⟩
  · intro rule inForce
    rcases
      (inForce_concat [.register noisy, .register loud] calm rule).mp inForce with
      rfl | ⟨inForce, _⟩
    · simp [Rule.NamesCollections, calm, Report.ofFindings]
    rcases (inForce_concat [.register noisy] loud rule).mp inForce with
      rfl | ⟨inForce, _⟩
    · simp [Rule.NamesCollections, loud, Report.ofFindings]
    rcases (inForce_concat [] noisy rule).mp inForce with rfl | ⟨inForce, _⟩
    · simp [Rule.NamesCollections, noisy]
    · exact (not_inForce_nil rule inForce).elim
  · have areRules : (reached lenient ⟨[], []⟩ crowd).rules = [noisy, loud, calm] :=
      rfl
    rw [sorted, areRules, List.flatMap_cons, List.flatMap_cons, contribution_loud]
    rfl
  · intro rule isCalm
    have together := inForce_concat [.register noisy, .register loud] calm rule
    have alone := inForce_concat [] calm rule
    have noneBefore (earlier : List Change) :
        ¬ (InForce earlier rule ∧ calm.id ≠ rule.id) :=
      fun ⟨_, otherId⟩ => otherId isCalm.symm
    rw [or_iff_left (noneBefore _)] at together alone
    exact together.trans alone.symm

end Linter

end DesignTokens.Lint
