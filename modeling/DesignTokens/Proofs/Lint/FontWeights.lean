import DesignTokens.Lint.Rules.Values
import DesignTokens.Proofs.Number.Doubles
import DesignTokens.Proofs.Registry.NativeDetection

namespace DesignTokens

/-!
# Font weights under two rules

Font weights are checked by themselves by one rule, and as parts of text styles
by another.  Both allow the same numbers.  A keyword is allowed by itself only,
and the check of a weight by itself fails where a whole number is too large for
a double.
-/

/-! Themes of one token. -/

/-- A collection of one token. -/
def Collection.ofToken (token : Token) : Collection where
  name := .str "tokens"
  modes := [.str "light"]
  defaultMode := .str "light"
  tokens := [(.str "light", [("token", .token token)])]
  description := .null

/-- A theme of one token. -/
def Theme.ofToken (token : Token) : Theme where
  name := .str "sole"
  collections := [.ofToken token]
  provenance? := none
  description := .null

/-- Where the token of a theme of one token stands. -/
def Located.sole (token : Token) : Located :=
  ⟨.ofToken token, .str "light", ["token"], token⟩

theorem Theme.walk_ofToken
    (token : Token) :
    (Theme.ofToken token).walk = [.sole token] :=
  rfl

namespace Lint

/-- What a report says. -/
def Report.texts (report : Report) : List String :=
  report.findings.map Finding.text

namespace ValueCheck

section Reporting

variable {check : ValueCheck} {token : Token}
  (isChecked : check.applies token = true)
  (registry : Registry) (id name description : String)
include isChecked

/-- On the only token of a theme, a value rule reports the flaws of its value. -/
theorem report_of_flaws
    {flaws : List String}
    (areFlaws : check.flaws token.value = .ok flaws) :
    (check.rule id name description).check registry (.ofToken token) =
      .ofFindings
        (flaws.map fun flaw => .atToken (.sole token) flaw check.suggestion?) := by
  have areFindings :
      check.findings (.ofToken token) =
        .ok (flaws.map fun flaw =>
          Finding.atToken (.sole token) flaw check.suggestion?) := by
    have applies : check.applies (Located.sole token).token = true := isChecked
    have isValue : check.flaws (Located.sole token).token.value = .ok flaws :=
      areFlaws
    rw [findings, Theme.walk_ofToken, List.mapM_cons, findingsAt, if_pos applies,
      isValue]
    simp [pure, Except.pure]
  simp only [rule, areFindings]
  rfl

/-- It fails where the flaws cannot be told. -/
theorem report_of_fault
    {fault : Fault}
    (isFault : check.flaws token.value = .error fault) :
    ∃ failure, (check.rule id name description).check registry (.ofToken token) =
      ⟨[], some failure⟩ := by
  have fails : check.findings (.ofToken token) = .error fault := by
    have applies : check.applies (Located.sole token).token = true := isChecked
    have isValue : check.flaws (Located.sole token).token.value = .error fault :=
      isFault
    rw [findings, Theme.walk_ofToken, List.mapM_cons, findingsAt, if_pos applies,
      isValue]
    rfl
  simp only [rule, fails]
  exact ⟨_, rfl⟩

end Reporting

end ValueCheck

/--
Everything about a text style but its weight passes the checks of the
rule on text styles.
-/
structure SoundBesidesWeight (style : Typography) : Prop where
  hasFamily : style.fontFamily.isEmpty = false
  size : dimensionFlaws "font size" false style.fontSize = .ok []
  height : lineHeightFlaws style.lineHeight = .ok []
  spacing : ∀ spacing ∈ style.letterSpacing?,
    dimensionFlaws "letter spacing" true spacing = .ok []

/-- What the rule on text styles reports on a token with a style. -/
def styleReport (registry : Registry) (style : Typography) : Report :=
  invalidTypographyValue.check registry
    (.ofToken (.plain "typography" (.typography style)))

/-- What the rule on font weights reports on a token with a weight. -/
def weightReport (registry : Registry) (weight : Wire) : Report :=
  invalidFontWeight.check registry (.ofToken (.plain "fontWeight" (.plain weight)))

theorem texts_ofFindings_atToken
    (located : Located)
    (suggestion? : Option String)
    (flaws : List String) :
    (Report.ofFindings
      (flaws.map fun flaw => .atToken located flaw suggestion?)).texts = flaws := by
  simp [Report.texts, Report.ofFindings, Finding.atToken, Function.comp_def]

/-- A weight is no keyword, as keywords are texts. -/
theorem isWeightKeyword_eq_false_of_isWeight
    {weight : Wire}
    (known : isWeight weight = true) :
    isWeightKeyword weight = false := by
  cases weight with
  | str => simp [isWeight] at known
  | _ => rfl

/-- The weights that fonts have are finite as doubles. -/
theorem isFinite_of_mem_weights :
    ∀ weight ∈ FontWeight.weights,
      (Number.ofInt (Int.ofNat weight)).isFinite = true ∧
        Succeeds (Number.ofInt? (Int.ofNat weight)) := by
  simp only [Number.succeeds_ofInt?_iff]
  decide

/-- A weight that fonts have is a finite number. -/
theorem isFiniteNumber_of_isWeight
    {weight : Wire}
    (known : isWeight weight = true) :
    isFiniteNumber weight = .ok true := by
  cases weight with
  | int whole =>
      obtain ⟨listed, isListed, same⟩ := List.any_eq_true.mp known
      obtain rfl : Int.ofNat listed = whole := by simpa using same
      obtain ⟨number, isNumber⟩ := (isFinite_of_mem_weights listed isListed).2
      simp only [isFiniteNumber, isNumber]
      rfl
  | float number =>
      obtain ⟨listed, isListed, same⟩ := List.any_eq_true.mp known
      have isFinite :=
        Number.isFinite_of_beq same (isFinite_of_mem_weights listed isListed).1
      simp [isFiniteNumber, isFinite]
  | _ => simp [isWeight] at known

/--
On a style that is otherwise sound, the rule on text styles reports
the weight alone.
-/
theorem texts_styleReport
    (registry : Registry)
    {style : Typography}
    (isSound : SoundBesidesWeight style) :
    (styleReport registry style).texts =
      flawUnless (isWeight style.fontWeight)
        ("Invalid typography: font weight " ++ style.fontWeight.quoted) := by
  have areFlaws : typographyTokenFlaws (.typography style) =
      .ok (flawUnless (isWeight style.fontWeight)
        ("Invalid typography: font weight " ++ style.fontWeight.quoted)) := by
    obtain ⟨hasFamily, size, height, spacing⟩ := isSound
    cases isSpacing : style.letterSpacing? with
    | none =>
        simp [typographyTokenFlaws, size, height, isSpacing, hasFamily, flawUnless,
          bind, Except.bind, pure, Except.pure]
    | some length =>
        simp [typographyTokenFlaws, size, height, isSpacing,
          spacing length isSpacing, hasFamily, flawUnless, bind, Except.bind, pure,
          Except.pure]
  rw [styleReport, invalidTypographyValue,
    ValueCheck.report_of_flaws rfl registry _ _ _ areFlaws,
    texts_ofFindings_atToken]

/-- A number can be checked unless it is too large for a double. -/
theorem succeeds_isFiniteNumber_iff
    {weight : Wire} :
    Succeeds (isFiniteNumber weight) ↔ ¬ weight.Overflows := by
  cases weight with
  | int whole =>
      simp [isFiniteNumber, Number.succeeds_ofInt?_iff, Wire.Overflows]
  | _ => simp [isFiniteNumber, Wire.Overflows]

/-- The rule on font weights has nothing to say about a keyword. -/
theorem weightReport_of_keyword
    (registry : Registry)
    {weight : Wire}
    (isKeyword : isWeightKeyword weight = true) :
    weightReport registry weight = .ofFindings [] := by
  have noFlaws : fontWeightTokenFlaws (.plain weight) = .ok [] := by
    simp [fontWeightTokenFlaws, TokenValue.encode, isKeyword, pure, Except.pure]
  rw [weightReport, invalidFontWeight,
    ValueCheck.report_of_flaws rfl registry _ _ _ noFlaws]
  rfl

/-- It cannot check a whole number that is too large for a double. -/
theorem weightReport_of_overflow
    (registry : Registry)
    {weight : Wire}
    (overflows : weight.Overflows) :
    ∃ failure, weightReport registry weight = ⟨[], some failure⟩ := by
  cases outcome : isFiniteNumber weight with
  | ok finite =>
      exact absurd overflows (succeeds_isFiniteNumber_iff.mp ⟨finite, outcome⟩)
  | error fault =>
      have noKeyword : isWeightKeyword weight = false := by
        obtain ⟨whole, rfl, _⟩ := overflows
        rfl
      have isFault : fontWeightTokenFlaws (.plain weight) = .error fault := by
        simp [fontWeightTokenFlaws, TokenValue.encode, noKeyword, outcome, bind,
          Except.bind]
      exact ValueCheck.report_of_fault rfl registry _ _ _ isFault

/-- Of every other value it reports whether it is a weight, and advises on one. -/
theorem weightReport_of_plain
    (registry : Registry)
    {weight : Wire}
    (noKeyword : isWeightKeyword weight = false)
    (noOverflow : ¬ weight.Overflows) :
    weightReport registry weight =
      .ofFindings
        ((flawUnless (isWeight weight)
          ("Invalid font weight: " ++ weight.quoted)).map
        fun flaw => .atToken (.sole (.plain "fontWeight" (.plain weight))) flaw
          (some "Use a multiple of 100 between 100 and 900")) := by
  obtain ⟨finite, isFinite⟩ := succeeds_isFiniteNumber_iff.mpr noOverflow
  have sameTest : (finite && isWeight weight) = isWeight weight := by
    cases known : isWeight weight with
    | false => exact Bool.and_false finite
    | true =>
        have isTrue := isFiniteNumber_of_isWeight known
        rw [isFinite] at isTrue
        cases isTrue
        rfl
  have areFlaws :
      fontWeightTokenFlaws (.plain weight) =
        .ok
          (flawUnless (isWeight weight)
            ("Invalid font weight: " ++ weight.quoted)) := by
    simp [fontWeightTokenFlaws, TokenValue.encode, noKeyword, isFinite, sameTest,
      pure, Except.pure, bind, Except.bind]
  rw [weightReport, invalidFontWeight,
    ValueCheck.report_of_flaws rfl registry _ _ _ areFlaws]

theorem flawUnless_eq_nil_iff
    {fine : Bool}
    {sentence : String} :
    flawUnless fine sentence = [] ↔ fine = true := by
  cases fine <;> simp [flawUnless]

/--
The rule on font weights is silent on weights and keywords, and where it fails.
-/
theorem findings_weightReport_eq_nil_iff
    (registry : Registry)
    {weight : Wire} :
    (weightReport registry weight).findings = [] ↔
      isWeight weight = true ∨ isWeightKeyword weight = true ∨
        weight.Overflows := by
  by_cases isKeyword : isWeightKeyword weight = true
  · simp [weightReport_of_keyword registry isKeyword, isKeyword, Report.ofFindings]
  by_cases overflows : weight.Overflows
  · obtain ⟨failure, fails⟩ := weightReport_of_overflow registry overflows
    simp [fails, overflows]
  · rw [weightReport_of_plain registry (by simpa using isKeyword) overflows]
    simp [Report.ofFindings, flawUnless_eq_nil_iff, isKeyword, overflows]

/--
It fails on the whole numbers that are too large for a double and
on nothing else.
-/
theorem weightReport_fails_iff
    (registry : Registry)
    {weight : Wire} :
    (weightReport registry weight).failure?.isSome = true ↔ weight.Overflows := by
  by_cases overflows : weight.Overflows
  · obtain ⟨failure, fails⟩ := weightReport_of_overflow registry overflows
    simp [fails, overflows]
  by_cases isKeyword : isWeightKeyword weight = true
  · simp [weightReport_of_keyword registry isKeyword, overflows, Report.ofFindings]
  · rw [weightReport_of_plain registry (by simpa using isKeyword) overflows]
    simp [Report.ofFindings, overflows]

/--
On a text style that is otherwise sound, the rule on text styles reports every
weight that is none of the numbers.  The rule on font weights reports the same
values but for keywords, which it allows, and for whole numbers too large for a
double, where it fails and reports nothing.  So the two rules agree on a value
exactly when it is neither.
-/
theorem weight_rules_agree_iff
    (registry : Registry)
    {style : Typography}
    (isSound : SoundBesidesWeight style) :
    (styleReport registry style).texts =
        flawUnless (isWeight style.fontWeight)
          ("Invalid typography: font weight " ++ style.fontWeight.quoted) ∧
      ((weightReport registry style.fontWeight).failure?.isSome = true ↔
        style.fontWeight.Overflows) ∧
      (((styleReport registry style).texts ≠ [] ↔
          (weightReport registry style.fontWeight).findings ≠ []) ↔
        isWeightKeyword style.fontWeight = false ∧
          ¬ style.fontWeight.Overflows) := by
  have styleTexts := texts_styleReport registry isSound
  refine ⟨styleTexts, weightReport_fails_iff registry, ?_⟩
  rw [styleTexts, not_iff_not, flawUnless_eq_nil_iff,
    findings_weightReport_eq_nil_iff]
  have noKeyword := fun known : isWeight style.fontWeight = true =>
    isWeightKeyword_eq_false_of_isWeight known
  have noOverflow := fun known : isWeight style.fontWeight = true =>
    succeeds_isFiniteNumber_iff.mp ⟨_, isFiniteNumber_of_isWeight known⟩
  grind

/-- A text style that is sound but for the weight it is given. -/
def headline (weight : Wire) : Typography where
  fontFamily := [.str "Inter"]
  fontSize := ⟨.int 16, .str "px"⟩
  fontWeight := weight
  lineHeight := .ratio (.int 2)
  letterSpacing? := none

theorem soundBesidesWeight_headline
    (weight : Wire) :
    SoundBesidesWeight (headline weight) where
  hasFamily := rfl
  size := by
    change dimensionFlaws "font size" false ⟨.int 16, .str "px"⟩ = .ok []
    decide
  height := by
    change lineHeightFlaws (.ratio (.int 2)) = .ok []
    decide
  spacing := by rintro _ ⟨⟩

/-- Both rules report a weight between two hundreds. -/
theorem weight_rules_agree_on_between :
    SoundBesidesWeight (headline (.int 450)) ∧
      (styleReport .standard (headline (.int 450))).texts =
        ["Invalid typography: font weight 450"] ∧
      (weightReport .standard (.int 450)).findings ≠ [] := by
  have isSound := soundBesidesWeight_headline (.int 450)
  obtain ⟨styleTexts, -, agree⟩ := weight_rules_agree_iff .standard isSound
  have reported : (styleReport .standard (headline (.int 450))).texts =
      ["Invalid typography: font weight 450"] :=
        styleTexts.trans (by decide +kernel)
  refine ⟨isSound, reported, ?_⟩
  have fits : ¬ (Wire.int 450).Overflows := by
    rintro ⟨_, ⟨rfl⟩, isInfinite⟩
    revert isInfinite
    decide +kernel
  exact (agree.mpr ⟨rfl, fits⟩).mp (by simp [reported])

/-- Of a bold weight, the rule on text styles is the only one to complain. -/
theorem bold_reported_in_styles_only :
    SoundBesidesWeight (headline (.str "bold")) ∧
      (styleReport .standard (headline (.str "bold"))).texts =
        ["Invalid typography: font weight 'bold'"] ∧
      (weightReport .standard (.str "bold")).findings = [] := by
  have isSound := soundBesidesWeight_headline (.str "bold")
  refine ⟨isSound, ?_, ?_⟩
  · rw [texts_styleReport .standard isSound]
    decide +kernel
  · rw [findings_weightReport_eq_nil_iff]
    exact .inr (.inl (by decide +kernel))

end Lint

end DesignTokens
