import DesignTokens.Lint.Rules.Structure
import DesignTokens.Proofs.Text.Search

namespace DesignTokens.Lint

open DesignTokens.Text

/-!
# Collections of one naming convention

A name counts for the first convention that it follows.  A single small word
follows kebab, camel and snake at once and counts for kebab, so the names of a
collection may count for two conventions although one fits them all.  For kebab
and Pascal this does not happen; for camel and snake it happens exactly when
some names are kebab as well and others are not.
-/

namespace Convention

/-- Whether a name follows a convention; one line end behind it does not matter. -/
def Follows (convention : Convention) (name : String) : Prop :=
  convention.fits (dropLineEnd name.toList) = true

instance (convention : Convention) (name : String) :
    Decidable (convention.Follows name) :=
  inferInstanceAs (Decidable (_ = true))

theorem isJoined_of_flat
    {first second : Char}
    {chars : List Char}
    (joined : isJoined first chars = true)
    (noFirst : first ∉ chars)
    (noSecond : second ∉ chars) :
    isJoined second chars = true := by
  rw [isJoined, splitOn_of_not_mem noFirst] at joined
  rwa [isJoined, splitOn_of_not_mem noSecond]

/-- What is both camel and snake has no separator, so that it is kebab as well. -/
theorem fits_kebab_of_camel_of_snake
    {chars : List Char}
    (isCamel : camel.fits chars = true)
    (isSnake : snake.fits chars = true) :
    kebab.fits chars = true := by
  have plain : ∀ c ∈ chars, c.isAlphanum = true :=
    List.all_eq_true.mp (Bool.and_eq_true_iff.mp isCamel).2
  apply isJoined_of_flat isSnake
  · intro isThere
    exact absurd (plain '_' isThere) (by decide)
  · intro isThere
    exact absurd (plain '-' isThere) (by decide)

/-- A Pascal name begins with a capital, which no other convention allows. -/
theorem eq_pascal_of_fits
    {chars : List Char}
    (isPascal : pascal.fits chars = true)
    {convention : Convention}
    (fits : convention.fits chars = true) :
    convention = pascal := by
  cases chars with
  | nil => cases isPascal
  | cons c rest =>
      have isUpper : c.isUpper = true := (Bool.and_eq_true_iff.mp isPascal).1
      have notLower : c.isLower ≠ true := by
        intro isLower
        have upperBounds : 'A'.val ≤ c.val ∧ c.val ≤ 'Z'.val :=
          of_decide_eq_true isUpper
        have lowerBounds : (decide ('a'.val ≤ c.val) && decide (c.val ≤ 'z'.val)) =
            true := isLower
        have atLeast : 'a'.val ≤ c.val :=
          of_decide_eq_true (Bool.and_eq_true_iff.mp lowerBounds).1
        have atMost : c.val ≤ 'Z'.val := upperBounds.2
        exact absurd (UInt32.le_trans atLeast atMost) (by decide)
      cases convention with
      | pascal => rfl
      | _ => exact (notLower (Bool.and_eq_true_iff.mp fits).1).elim

end Convention

open Convention

/--
A name that follows a convention counts for kebab or, where it is not kebab,
for the convention.
-/
theorem conventionOf?_of_follows
    {convention : Convention}
    {name : String}
    (follows : convention.Follows name) :
    (kebab.Follows name → conventionOf? name = some kebab) ∧
      (¬ kebab.Follows name → conventionOf? name = some convention) := by
  unfold Follows at *
  simp only [conventionOf?, Convention.all, List.find?_cons]
  constructor
  · intro isKebab
    rw [isKebab]
  · intro notKebab
    rw [eq_false_of_ne_true notKebab]
    cases convention with
    | kebab => exact (notKebab follows).elim
    | camel => rw [follows]
    | pascal =>
        have notCamel : camel.fits (dropLineEnd name.toList) = false := by
          apply eq_false_of_ne_true
          intro isCamel
          exact absurd (eq_pascal_of_fits follows isCamel) (by decide)
        rw [notCamel, follows]
    | snake =>
        have notCamel : camel.fits (dropLineEnd name.toList) = false := by
          apply eq_false_of_ne_true
          intro isCamel
          exact notKebab (fits_kebab_of_camel_of_snake isCamel follows)
        have notPascal : pascal.fits (dropLineEnd name.toList) = false := by
          apply eq_false_of_ne_true
          intro isPascal
          exact absurd (eq_pascal_of_fits isPascal follows) (by decide)
        rw [notCamel, notPascal, follows]

/-- More than one item is left without repetitions exactly when two items differ. -/
theorem one_lt_length_eraseDups_iff
    {α : Type}
    [BEq α]
    [LawfulBEq α]
    {items : List α} :
    1 < items.eraseDups.length ↔
      ∃ first ∈ items, ∃ second ∈ items, first ≠ second := by
  cases items with
  | nil => simp
  | cons head rest =>
      rw [List.eraseDups_cons, List.length_cons, Nat.lt_add_left_iff_pos,
        List.length_pos_iff_exists_mem]
      simp only [List.mem_eraseDups, List.mem_filter, Bool.not_eq_true',
        beq_eq_false_iff_ne]
      constructor
      · rintro ⟨other, isOther, differs⟩
        exact ⟨other, List.mem_cons_of_mem _ isOther, head, List.mem_cons_self,
          differs⟩
      · rintro ⟨first, isFirst, second, isSecond, differ⟩
        rcases List.mem_cons.mp isFirst with rfl | firstLater
        · exact ⟨second, List.mem_of_ne_of_mem differ.symm isSecond, differ.symm⟩
        · by_cases isHead : first = head
          · subst isHead
            exact ⟨second, List.mem_of_ne_of_mem differ.symm isSecond, differ.symm⟩
          · exact ⟨first, firstLater, isHead⟩

theorem mixedNaming_eq_nil_iff
    {collection : Collection} :
    mixedNaming collection = [] ↔
      ∀ first ∈ segmentsOf collection, ∀ second ∈ segmentsOf collection,
        ∀ convention other,
          conventionOf? first = some convention →
            conventionOf? second = some other → convention = other := by
  have isMixed : mixedNaming collection = [] ↔
      ¬ 1 < (conventionsOf (segmentsOf collection)).length := by
    simp [mixedNaming]
  rw [isMixed, conventionsOf, one_lt_length_eraseDups_iff]
  simp only [List.mem_filterMap]
  constructor
  · intro noneDiffer first isFirst second isSecond convention other
      isConvention isOther
    apply Classical.byContradiction
    intro differ
    exact noneDiffer ⟨convention, ⟨first, isFirst, isConvention⟩, other,
      ⟨second, isSecond, isOther⟩, differ⟩
  · rintro allSame ⟨convention, ⟨first, isFirst, isConvention⟩, other,
      ⟨second, isSecond, isOther⟩, differ⟩
    exact differ
      (allSame first isFirst second isSecond convention other isConvention isOther)

/--
Where one convention fits every name of a collection, the rule on naming reports
nothing about the collection exactly when every name is kebab or none is.  For
kebab and Pascal one of the two is always the case.
-/
theorem inconsistentNaming_of_uniform_names
    (registry : Registry)
    (theme : Theme) :
    inconsistentNaming.check registry theme =
        .ofFindings (theme.collections.flatMap mixedNaming) ∧
      ∀ collection ∈ theme.collections, ∀ convention : Convention,
        (∀ segment ∈ segmentsOf collection, convention.Follows segment) →
          (mixedNaming collection = [] ↔
            (∀ segment ∈ segmentsOf collection, kebab.Follows segment) ∨
              ∀ segment ∈ segmentsOf collection, ¬ kebab.Follows segment) ∧
          (convention = .kebab ∨ convention = .pascal →
            mixedNaming collection = []) := by
  refine ⟨rfl, fun collection _ convention uniform => ?_⟩
  have characterized :
      mixedNaming collection = [] ↔
        (∀ segment ∈ segmentsOf collection, kebab.Follows segment) ∨
          ∀ segment ∈ segmentsOf collection, ¬ kebab.Follows segment := by
    rw [mixedNaming_eq_nil_iff]
    constructor
    · intro allSame
      apply Classical.or_iff_not_imp_left.mpr
      intro notAll segment isSegment isKebab
      apply notAll
      intro other isOther
      apply Classical.byContradiction
      intro notKebab
      -- One name counts for kebab and the other for the convention, which it
      -- follows itself.
      have isConvention :=
        allSame segment isSegment other isOther _ _
          ((conventionOf?_of_follows (uniform segment isSegment)).1 isKebab)
          ((conventionOf?_of_follows (uniform other isOther)).2 notKebab)
      exact notKebab (isConvention ▸ uniform other isOther)
    · intro oneKind first isFirst second isSecond _ _ isFirstOf isSecondOf
      have firstCounts := conventionOf?_of_follows (uniform first isFirst)
      have secondCounts := conventionOf?_of_follows (uniform second isSecond)
      have countAlike : conventionOf? first = conventionOf? second := by
        rcases oneKind with allKebab | noneKebab
        · rw [firstCounts.1 (allKebab first isFirst),
            secondCounts.1 (allKebab second isSecond)]
        · rw [firstCounts.2 (noneKebab first isFirst),
            secondCounts.2 (noneKebab second isSecond)]
      exact Option.some.inj (isFirstOf.symm.trans (countAlike.trans isSecondOf))
  refine ⟨characterized, fun isSafe => characterized.mpr ?_⟩
  rcases isSafe with rfl | rfl
  · exact .inl uniform
  · refine .inr (fun segment isSegment isKebab => ?_)
    exact absurd (eq_pascal_of_fits (uniform segment isSegment) isKebab) (by decide)

/-- A theme of one collection, which holds one number in one group. -/
def worded (group name : String) : Theme where
  name := .str "worded"
  collections :=
    [ { name := .str "words"
        modes := [.str "light"]
        defaultMode := .str "light"
        tokens :=
          [ (.str "light",
              [(group,
                .group [(name, .token (.plain "number" (.plain (.int 1))))])]) ]
        description := .null } ]
  provenance? := none
  description := .null

/--
Pascal names are not mixed, and neither are camel names that all have a capital.
-/
theorem inconsistentNaming_of_pascal_names :
    (∀ collection ∈ (worded "Color" "PrimaryBlue").collections,
      mixedNaming collection = []) ∧
      ∀ collection ∈ (worded "brandColor" "primaryBlue").collections,
        mixedNaming collection = [] := by
  obtain ⟨_, ofPascal⟩ :=
    inconsistentNaming_of_uniform_names Registry.standard
      (worded "Color" "PrimaryBlue")
  obtain ⟨_, ofCamel⟩ :=
    inconsistentNaming_of_uniform_names Registry.standard
      (worded "brandColor" "primaryBlue")
  constructor
  · intro collection isCollection
    refine (ofPascal collection isCollection .pascal ?_).2 (.inr rfl)
    obtain rfl := List.mem_singleton.mp isCollection
    decide +kernel
  · intro collection isCollection
    refine (ofCamel collection isCollection .camel ?_).1.mpr (.inr ?_)
    all_goals
      obtain rfl := List.mem_singleton.mp isCollection
      decide +kernel

/--
Camel names are called mixed when one of them is a single small word, and so
are snake names.
-/
theorem inconsistentNaming_of_small_word :
    (∀ collection ∈ (worded "color" "primaryBlue").collections,
        ∀ segment ∈ segmentsOf collection, camel.Follows segment) ∧
      (inconsistentNaming.check .standard
        (worded "color" "primaryBlue")).findings.map Finding.text =
        ["Mixed naming conventions in collection \"words\": " ++
          "kebab: color; camel: primaryBlue"] ∧
      (∀ collection ∈ (worded "color" "primary_blue").collections,
        ∀ segment ∈ segmentsOf collection, snake.Follows segment) ∧
      (inconsistentNaming.check .standard
        (worded "color" "primary_blue")).findings.map Finding.text =
        ["Mixed naming conventions in collection \"words\": " ++
          "kebab: color; snake: primary_blue"] := by
  decide +kernel

end DesignTokens.Lint
