import DesignTokens.Proofs.Graph.Cycles
import DesignTokens.Proofs.Theme.Resolution
import Mathlib.Data.Finset.Dedup

namespace DesignTokens.Theme

/-!
# Reported reference cycles

The cycles of every mode are found in the graph of that mode, and lists with
the same members are reported once.  The sets of members that are reported are
therefore those of the cycles in which following references is caught in some
mode, each of them once; hops of different modes never make up a cycle.
-/

/-- Two lists have the same members when they make up the same set. -/
theorem sameMembers_eq_true_iff
    {left right : List String} :
    sameMembers left right = true ↔ left.toFinset = right.toFinset := by
  constructor
  · intro same
    obtain ⟨leftInRight, rightInLeft⟩ := Bool.and_eq_true_iff.mp same
    ext member
    rw [List.mem_toFinset, List.mem_toFinset]
    constructor
    · intro isLeft
      simpa using List.all_eq_true.mp leftInRight member isLeft
    · intro isRight
      simpa using List.all_eq_true.mp rightInLeft member isRight
  · intro same
    have sameMember : ∀ member, member ∈ left ↔ member ∈ right := by
      intro member
      rw [← List.mem_toFinset, same, List.mem_toFinset]
    refine Bool.and_eq_true_iff.mpr ⟨?_, ?_⟩
    · refine List.all_eq_true.mpr fun member isLeft => ?_
      simpa using (sameMember member).mp isLeft
    · refine List.all_eq_true.mpr fun member isRight => ?_
      simpa using (sameMember member).mpr isRight

/-- A cycle is known when its set of members is. -/
theorem any_sameMembers_iff
    {known : List (List String)}
    {cycle : List String} :
    known.any (sameMembers cycle) = true ↔
      cycle.toFinset ∈ known.map List.toFinset := by
  rw [List.any_eq_true, List.mem_map]
  constructor
  · rintro ⟨other, isKnown, same⟩
    exact ⟨other, isKnown, (sameMembers_eq_true_iff.mp same).symm⟩
  · rintro ⟨other, isKnown, same⟩
    exact ⟨other, isKnown, sameMembers_eq_true_iff.mpr same.symm⟩

/-- What adding cycles to those that are known reports. -/
structure Distinct (known cycles reported : List (List String)) : Prop where
  nodup :
    (reported.map List.toFinset).Nodup
  mem_iff :
    ∀ members,
      members ∈ reported.map List.toFinset ↔
        members ∈ known.map List.toFinset ∨ members ∈ cycles.map List.toFinset
  isGiven :
    ∀ cycle ∈ reported, cycle ∈ known ∨ cycle ∈ cycles

/-- Adding one cycle reports its members unless they are known. -/
theorem distinct_add
    {known : List (List String)}
    (knownNodup : (known.map List.toFinset).Nodup)
    (cycle : List String) :
    Distinct known [cycle]
      (if known.any (sameMembers cycle) then known else known ++ [cycle]) := by
  by_cases isKnown : cycle.toFinset ∈ known.map List.toFinset
  · rw [if_pos (any_sameMembers_iff.mpr isKnown)]
    refine ⟨knownNodup, fun members => ?_, fun _ isReported => .inl isReported⟩
    rw [List.map_singleton, List.mem_singleton, or_iff_left_of_imp]
    rintro rfl
    exact isKnown
  · rw [if_neg (fun same => isKnown (any_sameMembers_iff.mp same))]
    refine ⟨?_, fun members => ?_, fun _ => List.mem_append.mp⟩
    · rw [List.map_append, List.map_singleton, ← List.concat_eq_append]
      exact knownNodup.concat isKnown
    · rw [List.map_append, List.mem_append]

/-- Adding one cycle and then others adds them all. -/
theorem Distinct.cons
    {known next reported rest : List (List String)}
    {cycle : List String}
    (first : Distinct known [cycle] next)
    (others : Distinct next rest reported) :
    Distinct known (cycle :: rest) reported where
  nodup := others.nodup
  mem_iff members := by
    rw [others.mem_iff, first.mem_iff, List.map_singleton, List.mem_singleton,
      List.map_cons, List.mem_cons, or_assoc]
  isGiven other isReported := by
    rcases others.isGiven other isReported with isNext | isLater
    · exact (first.isGiven other isNext).imp_right fun isFirst =>
        List.mem_cons.mpr (.inl (List.mem_singleton.mp isFirst))
    · exact .inr (List.mem_cons_of_mem _ isLater)

/-- Adding cycles one after the other reports every set of members once. -/
theorem distinct_foldl
    {known : List (List String)}
    (knownNodup : (known.map List.toFinset).Nodup)
    (cycles : List (List String)) :
    Distinct known cycles
      (cycles.foldl
        (fun known cycle => if known.any (sameMembers cycle) then known
        else known ++ [cycle])
        known) := by
  induction cycles generalizing known with
  | nil => exact ⟨knownNodup, by simp, fun _ isReported => .inl isReported⟩
  | cons cycle rest inductionHypothesis =>
      have first := distinct_add knownNodup cycle
      exact first.cons (inductionHypothesis first.nodup)

/-- Every set of members of the given cycles is reported once, by one of them. -/
theorem distinct_distinctCycles
    (cycles : List (List String)) :
    Distinct [] cycles (distinctCycles cycles) :=
  distinct_foldl (by simp) cycles

/-- In the graph of a mode every node has one target. -/
theorem edge_unique
    (theme : Theme)
    (mode : Label) :
    Relator.RightUnique (theme.referenceGraph mode).Edge := by
  intro source first second firstEdge secondEdge
  exact LeadsTo.unique theme mode
    (edge_referenceGraph.mp firstEdge) (edge_referenceGraph.mp secondEdge)

/--
A list found in the graph of a mode is a cycle of following
references in that mode.
-/
theorem isCycle_of_mem_modeCycles
    {theme : Theme}
    {cycle : List String}
    (isFound : cycle ∈ theme.modeCycles) :
    ∃ mode ∈ theme.modes, IsCycle (theme.LeadsTo mode) cycle := by
  obtain ⟨mode, isMode, inGraph⟩ := List.mem_flatMap.mp isFound
  exact ⟨mode, isMode,
    (Graph.isCycle_of_mem_cycles inGraph).of_iff (fun _ _ => edge_referenceGraph)⟩

/--
The members of a cycle of following references in a mode are found in the
graph of the mode.
-/
theorem exists_mem_modeCycles
    {theme : Theme}
    {mode : Label}
    {cycle : List String}
    (isMode : mode ∈ theme.modes)
    (isCycle : IsCycle (theme.LeadsTo mode) cycle) :
    ∃ found ∈ theme.modeCycles, found.toFinset = cycle.toFinset := by
  have graphCycle : IsCycle (theme.referenceGraph mode).Edge cycle :=
    isCycle.of_iff (fun _ _ => edge_referenceGraph.symm)
  obtain ⟨found, isFound, sameMember⟩ :=
    Graph.exists_mem_cycles (theme.edge_unique mode) graphCycle
  refine ⟨found, List.mem_flatMap.mpr ⟨mode, isMode, isFound⟩, ?_⟩
  ext key
  rw [List.mem_toFinset, List.mem_toFinset, sameMember]

/--
No two reported lists have the same set of members, the sets of members are
those of the cycles of following references in the modes of the theme, and every
reported list is such a cycle of one mode, in the order of its hops.
-/
theorem referenceCycles_eq_cycles
    (theme : Theme) :
    (theme.referenceCycles.map List.toFinset).Nodup ∧
    (∀ members : Finset String,
      members ∈ theme.referenceCycles.map List.toFinset ↔
        ∃ mode ∈ theme.modes, ∃ cycle,
          IsCycle (theme.LeadsTo mode) cycle ∧ cycle.toFinset = members) ∧
    (∀ reported ∈ theme.referenceCycles,
      ∃ mode ∈ theme.modes, IsCycle (theme.LeadsTo mode) reported) := by
  obtain ⟨nodup, mem_iff, isGiven⟩ := distinct_distinctCycles theme.modeCycles
  refine ⟨nodup, ?_, ?_⟩
  · intro members
    rw [referenceCycles, mem_iff members, List.map_nil, List.mem_map]
    constructor
    · rintro (isNothing | ⟨found, isFound, rfl⟩)
      · cases isNothing
      · obtain ⟨mode, isMode, isCycle⟩ := isCycle_of_mem_modeCycles isFound
        exact ⟨mode, isMode, found, isCycle, rfl⟩
    · rintro ⟨mode, isMode, cycle, isCycle, rfl⟩
      exact .inr (exists_mem_modeCycles isMode isCycle)
  · intro reported isReported
    rcases isGiven reported isReported with isNothing | isFound
    · cases isNothing
    · exact isCycle_of_mem_modeCycles isFound

/--
The two tokens of the tangle that reference each other are reported as a cycle.
-/
theorem referenceCycles_tangle :
    ["first", "second"] ∈ tangle.referenceCycles ∧
      ∃ mode ∈ tangle.modes, IsCycle (tangle.LeadsTo mode) ["first", "second"] := by
  have isReported : ["first", "second"] ∈ tangle.referenceCycles :=
    by decide +kernel
  exact ⟨isReported, (referenceCycles_eq_cycles tangle).2.2 _ isReported⟩

end DesignTokens.Theme
