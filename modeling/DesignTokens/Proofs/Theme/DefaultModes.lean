import DesignTokens.Proofs.Theme.ReferenceCycles

namespace DesignTokens.Theme

/-!
# Resolution without a mode

The reported cycles are those of the listed modes, one mode after the other.
Resolution without a mode looks every path up in the default mode of each
collection, and where collections have different defaults these lookups need
not be those of any one mode.  A theme without a reported cycle therefore
resolves in each of its modes, and also without a mode when a mode is the
default of every collection that has it; a loop that is left goes through
tokens that no single mode finds.
-/

/--
A mode whose lookups are those of another has the same hops from the keys
it looks up alike.
-/
theorem LeadsTo.of_find?_eq
    {theme : Theme}
    {mode other : Label}
    {source target : String}
    (hop : theme.LeadsTo mode source target)
    (sameToken : theme.find? source other = theme.find? source mode) :
    theme.LeadsTo other source target := by
  obtain ⟨token, reference, isThere, isReference, isTarget⟩ := hop
  exact ⟨token, reference, sameToken.trans isThere, isReference, isTarget⟩

/-- In a theme without a reported cycle no walk of a listed mode enters one. -/
theorem not_entersCycle_of_silent
    {theme : Theme}
    (silent : theme.referenceCycles = [])
    {mode : Label}
    (isMode : mode ∈ theme.modes)
    (start : String) :
    ¬ EntersCycle (theme.LeadsTo mode) start := by
  rintro ⟨cycle, _, isCycle, _, _⟩
  obtain ⟨found, isFound, _⟩ := exists_mem_modeCycles isMode isCycle
  have isReported := ((distinct_distinctCycles theme.modeCycles).mem_iff _).mpr
    (.inr (List.mem_map_of_mem isFound))
  rw [referenceCycles] at silent
  rw [silent] at isReported
  cases isReported

/--
A loop that is left in a theme without a reported cycle passes, for each of the
listed modes, a key at which that mode finds another token.
-/
theorem exists_find?_ne_of_silent
    {theme : Theme}
    (silent : theme.referenceCycles = [])
    {label : Label}
    {token : Token}
    {problem : Problem}
    (failed : theme.resolve token label = .error problem) :
    ∃ walk,
      problem = .circularReference walk ∧
        ∀ mode ∈ theme.modes,
          ∃ key ∈ walk, theme.find? key mode ≠ theme.find? key label := by
  cases isReference : token.value.reference? with
  | none =>
      rw [resolve, resolveFrom, isReference] at failed
      cases failed
  | some reference =>
      obtain ⟨walk, returned, isProblem⟩ :=
        (resolve_eq_error_iff (TokenValue.reference?_eq_some.mp isReference)).mp
          failed
      refine ⟨walk, isProblem, fun mode isMode => ?_⟩
      refine Classical.byContradiction fun noneDiffers => ?_
      have sameTokens :
          ∀ key ∈ walk, theme.find? key mode = theme.find? key label := by
        simpa using noneDiffers
      have returnedInMode : FirstReturn (theme.LeadsTo mode) reference.path walk :=
        returned.of_hops
          (fun key isPassed _ hop => hop.of_find?_eq (sameTokens key isPassed))
      exact not_entersCycle_of_silent silent isMode _ returnedInMode.entersCycle

/-- Whether a mode is the default of every collection that has a tree for it. -/
def IsCommonDefault (theme : Theme) (mode : Label) : Prop :=
  ∀ collection ∈ theme.collections,
    collection.hasMode mode = true → collection.defaultMode = mode

/-- Looking up in a common default mode is looking up without a mode. -/
theorem IsCommonDefault.find?_eq
    {theme : Theme}
    {mode : Label}
    (common : theme.IsCommonDefault mode)
    (key : String) :
    theme.find? key mode = theme.find? key .null := by
  have sameTree : ∀ collection ∈ theme.collections,
      collection.preferredTree mode = collection.preferredTree .null := by
    intro collection isCollection
    unfold Collection.preferredTree
    rw [ite_self]
    by_cases hasMode : collection.hasMode mode = true
    · rw [if_pos hasMode]
      simp [Collection.modeTokens, common collection isCollection hasMode,
        Wire.isTruthy]
    · rw [if_neg hasMode]
  have samePreferred :
      theme.findPreferred? key mode = theme.findPreferred? key .null := by
    unfold findPreferred?
    rw [← List.head?_filterMap, ← List.head?_filterMap]
    refine congrArg List.head?
      (List.filterMap_congr fun collection isCollection => ?_)
    rw [sameTree collection isCollection]
  rw [find?, find?, samePreferred]

/--
Without a reported cycle no token fails to resolve in a listed mode.  Without a
mode a token fails only with a loop that differs from every listed mode at one
of its keys, and so none does when a listed mode is a common default.
-/
theorem resolve_of_no_reported_cycle
    {theme : Theme}
    (silent : theme.referenceCycles = []) :
    (∀ mode ∈ theme.modes,
      ∀ token problem, theme.resolve token mode ≠ .error problem) ∧
    (∀ token problem,
      theme.resolve token .null = .error problem →
        ∃ walk,
          problem = .circularReference walk ∧
            ∀ mode ∈ theme.modes,
              ∃ key ∈ walk, theme.find? key mode ≠ theme.find? key .null) ∧
    (∀ mode ∈ theme.modes,
      theme.IsCommonDefault mode →
        ∀ token problem, theme.resolve token .null ≠ .error problem) := by
  refine ⟨?_, fun _ _ => exists_find?_ne_of_silent silent, ?_⟩
  · intro mode isMode token problem failed
    obtain ⟨_, _, differs⟩ := exists_find?_ne_of_silent silent failed
    obtain ⟨_, _, differsFromItself⟩ := differs mode isMode
    exact differsFromItself rfl
  · intro mode isMode common token problem failed
    obtain ⟨_, _, differs⟩ := exists_find?_ne_of_silent silent failed
    obtain ⟨key, _, differsFromDefault⟩ := differs mode isMode
    exact differsFromDefault (common.find?_eq key)

/-- A collection of two modes that holds one token under the same name in both. -/
def twofold
    (name : String)
    (defaultMode : String)
    (key : String)
    (light dark : TokenValue) : Collection where
  name := .str name
  modes := [.str "light", .str "dark"]
  defaultMode := .str defaultMode
  tokens :=
    [ (.str "light", [(key, .token (.plain "number" light))]),
      (.str "dark", [(key, .token (.plain "number" dark))]) ]
  description := .null

/-- One token references another, which references nothing. -/
def straight : Theme where
  name := .str "straight"
  collections :=
    [ twofold "first" "light" "a" (.reference ⟨"b"⟩) (.plain (.int 1)),
      twofold "second" "light" "b" (.plain (.int 2)) (.plain (.int 3)) ]
  provenance? := none
  description := .null

/--
Two tokens that reference each other in the default modes of their collections.
-/
def crossed : Theme where
  name := .str "crossed"
  collections :=
    [ twofold "first" "light" "a" (.reference ⟨"b"⟩) (.plain (.int 1)),
      twofold "second" "dark" "b" (.plain (.int 2)) (.reference ⟨"a"⟩) ]
  provenance? := none
  description := .null

/-- Light is the default of both collections, so nothing fails to resolve. -/
theorem resolve_straight :
    straight.referenceCycles = [] ∧
      .str "light" ∈ straight.modes ∧
      straight.IsCommonDefault (.str "light") ∧
      ∀ problem, straight.resolve (pointer "a") .null ≠ .error problem := by
  have silent : straight.referenceCycles = [] := by decide +kernel
  have isMode : .str "light" ∈ straight.modes := by
    simp [modes, straight, twofold, distinctLabels]
  have common : straight.IsCommonDefault (.str "light") := by
    simp [IsCommonDefault, straight, twofold]
  exact ⟨silent, isMode, common,
    (resolve_of_no_reported_cycle silent).2.2 _ isMode common (pointer "a")⟩

/-- Neither mode has a cycle, but without a mode the two tokens loop. -/
theorem resolve_crossed :
    crossed.referenceCycles = [] ∧
      crossed.resolve (pointer "a") .null =
        .error (.circularReference ["a", "b", "a"]) := by
  have firstHop : crossed.LeadsTo .null "a" "b" := ⟨_, _, rfl, rfl, rfl⟩
  have secondHop : crossed.LeadsTo .null "b" "a" := ⟨_, _, rfl, rfl, rfl⟩
  have isReference : (pointer "a").value = .reference ⟨"a"⟩ := rfl
  refine ⟨by decide +kernel, (resolve_eq_error_iff isReference).mpr ?_⟩
  exact ⟨["a", "b", "a"], ⟨rfl, by simp [firstHop, secondHop], by decide, by simp⟩,
    rfl⟩

end DesignTokens.Theme
