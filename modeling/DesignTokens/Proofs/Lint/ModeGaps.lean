import DesignTokens.Lint.Rules.Modes
import DesignTokens.Proofs.Graph.Edge
import DesignTokens.Proofs.Reading
import DesignTokens.Proofs.Theme.Building
import Mathlib.Data.List.Nodup

namespace DesignTokens

/-!
# Gaps between modes

A gap is a mode together with a key that another mode of the same collection
has and it has not.  The rule on modes reports every gap once, mode by mode, and
nothing else.  A mode may be declared twice, and a declared mode without a tree
has no keys.
-/

namespace Theme

/-- Names that are repeated keep their first places. -/
theorem exists_distinctLabels_of_names
    (names : List String) :
    ∃ distinct : List String,
      distinctLabels (names.map Wire.str) = distinct.map Wire.str ∧
        (∀ name, name ∈ distinct ↔ name ∈ names) ∧
        distinct.Pairwise
          (fun first second => names.idxOf first < names.idxOf second) := by
  induction names with
  | nil => exact ⟨[], rfl, by simp, .nil⟩
  | cons head rest inductionHypothesis =>
      obtain ⟨distinct, isDistinct, sameNames, inOrder⟩ := inductionHypothesis
      refine ⟨head :: distinct.filter (fun name => name != head), ?_, ?_, ?_⟩
      · rw [List.map_cons, distinctLabels, isDistinct, List.filter_map,
          List.map_cons]
        rfl
      · intro name
        by_cases isHead : name = head
        · simp [isHead]
        · simp [isHead, sameNames]
      · have notHead {name : String}
          (isLater : name ∈ distinct.filter (fun name => name != head)) :
              head ≠ name :=
          (bne_iff_ne.mp (List.mem_filter.mp isLater).2).symm
        apply List.pairwise_cons.mpr
        constructor
        · intro name isLater
          rw [List.idxOf_cons_self, List.idxOf_cons_ne _ (notHead isLater)]
          exact Nat.succ_pos _
        · apply List.Pairwise.imp_of_mem _ (inOrder.filter _)
          intro first second isFirst isSecond before
          rw [List.idxOf_cons_ne _ (notHead isFirst),
            List.idxOf_cons_ne _ (notHead isSecond)]
          exact Nat.succ_lt_succ before

end Theme

namespace Collection

/--
The modes that a collection declares have these names, in this order, and
no name is empty.
-/
def Declares (collection : Collection) (names : List String) : Prop :=
  collection.modes = names.map Wire.str ∧ "" ∉ names

/-- The keys of the tokens in the tree of a mode; a mode without a tree has none. -/
def keysIn (collection : Collection) (mode : String) : List String :=
  ((collection.tree? (.str mode)).getD []).keys

/--
The modes of a collection and the keys that they lack, in the
order of declaration.
-/
structure Gaps
    (collection : Collection)
    (names : List String)
    (gaps : List (String × String)) : Prop where
  mem_iff : ∀ mode key,
    (mode, key) ∈ gaps ↔
      mode ∈ names ∧ (∃ other ∈ names, key ∈ collection.keysIn other) ∧
        key ∉ collection.keysIn mode
  nodup : gaps.Nodup
  inOrder :
    gaps.Pairwise (fun first second => names.idxOf first.1 ≤ names.idxOf second.1)

end Collection

namespace Lint

open DesignTokens.Collection

variable {collection : Collection} {names : List String}

theorem modeKeys_of_name
    (collection : Collection)
    {mode : String}
    (notEmpty : mode ≠ "") :
    modeKeys collection (.str mode) = collection.keysIn mode := by
  have isNamed : (Wire.str mode).isTruthy = true := bne_iff_ne.mpr notEmpty
  rw [modeKeys, modeTokens, if_pos isNamed, keysIn]

theorem mem_declaredKeys_iff
    (declares : collection.Declares names)
    {key : String} :
    key ∈ declaredKeys collection ↔
      ∃ other ∈ names, key ∈ collection.keysIn other := by
  obtain ⟨distinct, isDistinct, sameNames, _⟩ :=
    Theme.exists_distinctLabels_of_names names
  rw [declaredKeys, List.mem_eraseDups, declares.1, isDistinct, List.flatMap_map,
    List.mem_flatMap]
  constructor
  · rintro ⟨other, isOther, isKey⟩
    have isName := (sameNames other).mp isOther
    rw [modeKeys_of_name collection
      (ne_of_mem_of_not_mem isName declares.2)] at isKey
    exact ⟨other, isName, isKey⟩
  · rintro ⟨other, isName, isKey⟩
    refine ⟨other, (sameNames other).mpr isName, ?_⟩
    rwa [modeKeys_of_name collection (ne_of_mem_of_not_mem isName declares.2)]

/-- Names can be looked up, so that no label keeps the modes from being compared. -/
theorem gapFindingsOf_of_names
    (declares : collection.Declares names) :
    gapFindingsOf collection = .ok (gapFindings collection) := by
  have noFault : collection.modes.findSome? (labelFault? collection) = none := by
    apply List.findSome?_eq_none_iff.mpr
    intro mode isMode
    rw [declares.1] at isMode
    obtain ⟨name, isName, rfl⟩ := List.mem_map.mp isMode
    have isNamed : (Wire.str name).isTruthy = true :=
      bne_iff_ne.mpr (ne_of_mem_of_not_mem isName declares.2)
    simp [labelFault?, isNamed, Wire.isKey]
  rw [gapFindingsOf, noFault, ite_self]

/-- The gaps of one mode. -/
def gapsIn (collection : Collection) (mode : String) : List (String × String) :=
  ((declaredKeys collection).filter
    (fun key => !(collection.keysIn mode).contains key)).map
    (fun key => (mode, key))

theorem gapsOfMode_of_name
    (collection : Collection)
    {mode : String}
    (notEmpty : mode ≠ "") :
    gapsOfMode collection (.str mode) =
      (gapsIn collection mode).map
        (fun gap => gapFinding collection (.str gap.1) gap.2) := by
  rw [gapsOfMode, modeKeys_of_name collection notEmpty, gapsIn, List.map_map]
  rfl

theorem mem_gapsIn_iff
    (declares : collection.Declares names)
    {mode : String}
    {gap : String × String} :
    gap ∈ gapsIn collection mode ↔
      gap.1 = mode ∧ (∃ other ∈ names, gap.2 ∈ collection.keysIn other) ∧
        gap.2 ∉ collection.keysIn mode := by
  obtain ⟨gapMode, key⟩ := gap
  simp only [gapsIn, List.mem_map, List.mem_filter, mem_declaredKeys_iff declares,
    Bool.not_eq_true', List.contains_eq_mem, decide_eq_false_iff_not, Prod.mk.injEq]
  constructor
  · rintro ⟨_, lacks, rfl, rfl⟩
    exact ⟨rfl, lacks⟩
  · rintro ⟨rfl, lacks⟩
    exact ⟨key, lacks, rfl, rfl⟩

theorem nodup_gapsIn
    (collection : Collection)
    (mode : String) :
    (gapsIn collection mode).Nodup := by
  apply List.Nodup.map _ ((nodup_eraseDups _).filter _)
  intro first second samePair
  exact (Prod.mk.inj samePair).2

/--
The findings about a collection of several modes are one for each of its gaps.
-/
theorem exists_gaps
    (declares : collection.Declares names)
    (several : 2 ≤ names.length) :
    ∃ gaps,
      collection.Gaps names gaps ∧
        gapFindings collection =
          gaps.map (fun gap => gapFinding collection (.str gap.1) gap.2) := by
  obtain ⟨distinct, isDistinct, sameNames, inOrder⟩ :=
    Theme.exists_distinctLabels_of_names names
  refine ⟨distinct.flatMap (gapsIn collection), ⟨?_, ?_, ?_⟩, ?_⟩
  · intro mode key
    simp only [List.mem_flatMap, mem_gapsIn_iff declares, sameNames]
    constructor
    · rintro ⟨_, isName, rfl, lacks⟩
      exact ⟨isName, lacks⟩
    · rintro ⟨isName, lacks⟩
      exact ⟨mode, isName, rfl, lacks⟩
  · apply List.nodup_flatMap.mpr
    constructor
    · intro mode _
      exact nodup_gapsIn collection mode
    · apply inOrder.imp
      intro first second before gap isOfFirst isOfSecond
      have sameMode : first = second :=
        ((mem_gapsIn_iff declares).mp isOfFirst).1.symm.trans
          ((mem_gapsIn_iff declares).mp isOfSecond).1
      exact absurd before (sameMode ▸ Nat.lt_irrefl _)
  · apply List.pairwise_flatMap.mpr
    constructor
    · intro mode _
      apply List.pairwise_of_forall_mem_list
      intro first isFirst second isSecond
      rw [((mem_gapsIn_iff declares).mp isFirst).1,
        ((mem_gapsIn_iff declares).mp isSecond).1]
    · apply inOrder.imp
      intro first second before gap isOfFirst other isOfSecond
      rw [((mem_gapsIn_iff declares).mp isOfFirst).1,
        ((mem_gapsIn_iff declares).mp isOfSecond).1]
      exact Nat.le_of_lt before
  · have notFew : ¬ collection.modes.length < 2 := by
      rw [declares.1, List.length_map]
      exact Nat.not_lt.mpr several
    rw [gapFindings, if_neg notFew, declares.1, isDistinct, List.flatMap_map,
      List.map_flatMap]
    apply List.flatMap_congr
    intro mode isMode
    exact gapsOfMode_of_name collection
      (ne_of_mem_of_not_mem ((sameNames mode).mp isMode) declares.2)

theorem gapFindings_of_few
    (declares : collection.Declares names)
    (few : names.length < 2) :
    gapFindings collection = [] := by
  have fewModes : collection.modes.length < 2 :=
    by rwa [declares.1, List.length_map]
  rw [gapFindings, if_pos fewModes]

/-- A collection of several modes has no gaps when all modes have the same keys. -/
theorem gapFindings_eq_nil_iff
    (declares : collection.Declares names)
    (several : 2 ≤ names.length) :
    gapFindings collection = [] ↔
      ∀ mode ∈ names, ∀ other ∈ names, ∀ key,
        key ∈ collection.keysIn mode ↔ key ∈ collection.keysIn other := by
  obtain ⟨gaps, areGaps, isFindings⟩ := exists_gaps declares several
  rw [isFindings, List.map_eq_nil_iff]
  constructor
  · intro noGaps
    have subset {mode other key : String} (isMode : mode ∈ names)
        (isOther : other ∈ names) (isKey : key ∈ collection.keysIn mode) :
            key ∈ collection.keysIn other := by
      apply Classical.byContradiction
      intro lacks
      have isGap :=
        (areGaps.mem_iff other key).mpr ⟨isOther, ⟨mode, isMode, isKey⟩, lacks⟩
      rw [noGaps] at isGap
      cases isGap
    intro mode isMode other isOther key
    exact ⟨subset isMode isOther, subset isOther isMode⟩
  · intro sameKeys
    apply List.eq_nil_iff_forall_not_mem.mpr
    intro gap isGap
    obtain ⟨isMode, ⟨other, isOther, isKey⟩, lacks⟩ :=
      (areGaps.mem_iff gap.1 gap.2).mp isGap
    exact lacks ((sameKeys gap.1 isMode other isOther gap.2).mpr isKey)

/--
In a theme whose modes have names, the rule on modes reports one finding for
each gap of each collection of several modes, and nothing else.  It is silent
exactly when all modes of each such collection have the same keys.
-/
theorem modeConsistency_reports_gaps
    (registry : Registry)
    {theme : Theme}
    (named : ∀ collection ∈ theme.collections, ∃ names, collection.Declares names) :
    modeConsistency.check registry theme =
        .ofFindings (theme.collections.flatMap gapFindings) ∧
      (∀ collection ∈ theme.collections, ∀ names, collection.Declares names →
        (names.length < 2 → gapFindings collection = []) ∧
          (2 ≤ names.length →
            ∃ gaps,
              collection.Gaps names gaps ∧
                gapFindings collection =
                  gaps.map (fun gap => gapFinding collection (.str gap.1) gap.2))) ∧
      ((modeConsistency.check registry theme).findings = [] ↔
        ∀ collection ∈ theme.collections, ∀ names, collection.Declares names →
          2 ≤ names.length →
            ∀ mode ∈ names, ∀ other ∈ names, ∀ key,
              key ∈ collection.keysIn mode ↔ key ∈ collection.keysIn other) := by
  have isReport :
      modeConsistency.check registry theme =
        .ofFindings (theme.collections.flatMap gapFindings) := by
    have allFound : theme.collections.mapM gapFindingsOf =
        .ok (theme.collections.map gapFindings) := by
      apply mapM_eq_ok_map
      intro collection isCollection
      obtain ⟨names, declares⟩ := named collection isCollection
      exact gapFindingsOf_of_names declares
    rw [List.flatMap_def]
    simp only [modeConsistency, allFound]
    rfl
  refine ⟨isReport, ?_, ?_⟩
  · intro collection _ names declares
    exact ⟨gapFindings_of_few declares, exists_gaps declares⟩
  · rw [isReport]
    change theme.collections.flatMap gapFindings = [] ↔ _
    rw [List.flatMap_eq_nil_iff]
    constructor
    · intro silent collection isCollection names declares several
      exact (gapFindings_eq_nil_iff declares several).mp
        (silent collection isCollection)
    · intro sameKeys collection isCollection
      obtain ⟨names, declares⟩ := named collection isCollection
      rcases Nat.lt_or_ge names.length 2 with few | several
      · exact gapFindings_of_few declares few
      · exact (gapFindings_eq_nil_iff declares several).mpr
          (sameKeys collection isCollection names declares several)

/-- A collection whose dark mode lacks a token and whose third mode has no tree. -/
def palette : Collection where
  name := .str "palette"
  modes := [.str "light", .str "dark", .str "light", .str "contrast"]
  defaultMode := .str "light"
  tokens :=
    [ (.str "light",
        [ ("ink", .token (.plain "number" (.plain (.int 1)))),
          ("paper", .token (.plain "number" (.plain (.int 2)))) ]),
      (.str "dark", [("ink", .token (.plain "number" (.plain (.int 2))))]) ]
  description := .null

/-- A theme of that collection. -/
def uneven : Theme := ⟨.str "uneven", [palette], none, .null⟩

/-- The theme has three gaps, and they are reported mode by mode. -/
theorem modeConsistency_uneven :
    (∀ collection ∈ uneven.collections, ∃ names, collection.Declares names) ∧
      (modeConsistency.check .standard uneven).findings ≠ [] ∧
      (modeConsistency.check .standard uneven).findings.map Finding.text =
        [ "Token \"paper\" is missing in mode \"dark\"",
          "Token \"ink\" is missing in mode \"contrast\"",
          "Token \"paper\" is missing in mode \"contrast\"" ] := by
  have declares : palette.Declares ["light", "dark", "light", "contrast"] :=
    ⟨rfl, by decide⟩
  have named :
      ∀ collection ∈ uneven.collections, ∃ names, collection.Declares names := by
    intro collection isCollection
    obtain rfl := List.mem_singleton.mp isCollection
    exact ⟨_, declares⟩
  obtain ⟨_, _, silent_iff⟩ := modeConsistency_reports_gaps .standard named
  refine ⟨named, ?_, by decide +kernel⟩
  intro silent
  have sameKeys := silent_iff.mp silent palette (List.mem_singleton_self _) _
    declares (by decide) "light" (by decide) "dark" (by decide) "paper"
  exact absurd sameKeys (by decide +kernel)

end Lint

end DesignTokens
