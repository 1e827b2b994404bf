import DesignTokens.Proofs.Graph.Sweep

namespace DesignTokens.Graph

/-!
# Cycles are reported once

A cycle is reported while it is the end of the path being explored, and its
members are checked from then on.  A checked node is not put on the path again,
so later either a member has left the path for good, or the cycle still lies on
the path as it did, and the edge that closed it is not pending any more.  Hence
no list with the same members is reported a second time.
-/

open Relation

/-- Two lists hold the same nodes. -/
def SameNodes (first second : List String) : Prop :=
  ∀ node, node ∈ first ↔ node ∈ second

/-- A cycle has a member that is done, so it cannot come up again. -/
def LeftBehind (state : State) (cycle : List String) : Prop :=
  ∃ node ∈ cycle, node ∈ state.search.checked ∧ node ∉ state.path

/--
A cycle lies on the path, and the edge that closes it is not pending any more.
-/
def DealtWith (frames : List Frame) (cycle : List String) : Prop :=
  ∃ recent frame older,
    frames = recent ++ frame :: older ∧
      cycle.reverse <+: frame.node :: older.map Frame.node ∧
      ∀ first ∈ cycle.head?, first ∉ frame.pending

/-- What holds of the reported cycles after every step. -/
structure ReportsOnce (state : State) : Prop where
  pendingDistinct :
    ∀ frame ∈ state.frames, frame.pending.Nodup
  past :
    ∀ cycle ∈ state.search.cycles, LeftBehind state cycle ∨
      DealtWith state.frames cycle
  once :
    state.search.cycles.Pairwise (fun first second => ¬ SameNodes first second)

/-- What a target on the path closes is the end of the path, turned round. -/
theorem reverse_cycleTo_isPrefix
    {target : String}
    {path : List String}
    (onPath : target ∈ path)
    (distinct : path.Nodup) :
    (cycleTo target path).reverse <+: path := by
  obtain ⟨recent, older, rfl⟩ := List.append_of_mem onPath
  have isLatest : target ∉ recent := by
    intro isRecent
    exact (List.nodup_append.mp distinct).2.2 target isRecent target (by simp) rfl
  rw [cycleTo_append older isLatest, List.reverse_reverse]
  exact ⟨older, by simp⟩

/--
A list that begins a path when it is read backwards holds the last
node of the path.
-/
theorem last_mem_of_reverse_isPrefix
    {node : String}
    {above cycle : List String}
    (nonempty : cycle ≠ [])
    (starts : cycle.reverse <+: node :: above) :
    node ∈ cycle := by
  cases isReversed : cycle.reverse with
  | nil => exact (nonempty (List.reverse_eq_nil_iff.mp isReversed)).elim
  | cons last others =>
      rw [isReversed] at starts
      obtain ⟨rfl, _⟩ := List.cons_prefix_cons.mp starts
      exact List.mem_reverse.mp (isReversed ▸ List.mem_cons_self)

/--
Two starts of a list without repetitions that hold the same nodes are the same.
-/
theorem eq_of_sameNodes_of_prefixes
    {first second path : List String}
    (distinct : path.Nodup)
    (firstStarts : first <+: path)
    (secondStarts : second <+: path)
    (same : SameNodes first second) :
    first = second := by
  have firstDistinct := distinct.sublist firstStarts.sublist
  have secondDistinct := distinct.sublist secondStarts.sublist
  have sameLength : first.length = second.length :=
    ((List.perm_ext_iff_of_nodup firstDistinct secondDistinct).mpr same).length_eq
  rcases List.prefix_or_prefix_of_prefix firstStarts secondStarts with
    shorter | longer
  · exact shorter.eq_of_length sameLength
  · exact (longer.eq_of_length sameLength.symm).symm

/--
A cycle that is dealt with does not lie at the end of the path when its closing
edge is pending.
-/
theorem not_sameNodes_cycleTo
    {node target : String}
    {pending : List String}
    {below : List Frame}
    {search : Search}
    {cycle : List String}
    (distinct : (node :: below.map Frame.node).Nodup)
    (onPath : target ∈ node :: below.map Frame.node)
    (past :
      LeftBehind ⟨⟨node, target :: pending⟩ :: below, search⟩ cycle ∨
        DealtWith (⟨node, target :: pending⟩ :: below) cycle) :
    ¬ SameNodes cycle (cycleTo target (node :: below.map Frame.node)) := by
  intro same
  have closingStarts := reverse_cycleTo_isPrefix onPath distinct
  rcases past with
    ⟨member, isMember, _, offPath⟩ | ⟨recent, frame, older, frames, starts,
      notPending⟩
  · -- All members of what is closed now are on the path.
    have isClosing := List.mem_reverse.mpr ((same member).mp isMember)
    exact offPath (closingStarts.subset isClosing)
  · have nodeMember : node ∈ cycle :=
      (same node).mpr
        (last_mem_of_reverse_isPrefix (List.cons_ne_nil _ _) closingStarts)
    -- The last node of the path is a member, so the cycle lies at the end of the
    -- path.
    cases recent with
    | cons top between =>
        have belowShape : below = between ++ frame :: older :=
          (List.cons.inj frames).2
        refine ((List.nodup_cons.mp distinct).1 ?_).elim
        rw [belowShape, List.map_append]
        exact List.mem_append_right _
          (starts.subset (List.mem_reverse.mpr nodeMember))
    | nil =>
        obtain ⟨rfl, rfl⟩ := List.cons.inj frames
        have sameReversed :
            SameNodes cycle.reverse
              (cycleTo target (node :: below.map Frame.node)).reverse := by
          intro member
          rw [List.mem_reverse, List.mem_reverse]
          exact same member
        have sameList :=
          List.reverse_injective
            (eq_of_sameNodes_of_prefixes distinct starts closingStarts sameReversed)
        refine notPending target ?_ List.mem_cons_self
        rw [sameList]
        rfl

/-- With fewer targets pending, a cycle that is dealt with remains so. -/
theorem DealtWith.fewer
    {node : String}
    {pending fewer : List String}
    {below : List Frame}
    {cycle : List String}
    (dealtWith : DealtWith (⟨node, pending⟩ :: below) cycle)
    (areFewer : fewer ⊆ pending) :
    DealtWith (⟨node, fewer⟩ :: below) cycle := by
  obtain ⟨recent, frame, older, frames, starts, notPending⟩ := dealtWith
  cases recent with
  | nil =>
      obtain ⟨rfl, rfl⟩ := List.cons.inj frames
      exact ⟨[], _, _, rfl, starts, fun first isFirst isPending =>
        notPending first isFirst (areFewer isPending)⟩
  | cons top between =>
      obtain ⟨_, rfl⟩ := List.cons.inj frames
      exact ⟨_ :: between, frame, older, rfl, starts, notPending⟩

/-- Behind a longer path, a cycle that is dealt with remains so. -/
theorem DealtWith.push
    {frames : List Frame}
    {cycle : List String}
    (dealtWith : DealtWith frames cycle)
    (top : Frame) :
    DealtWith (top :: frames) cycle := by
  obtain ⟨recent, frame, older, rfl, starts, notPending⟩ := dealtWith
  exact ⟨top :: recent, frame, older, rfl, starts, notPending⟩

/-- The targets of a node are looked at once each. -/
theorem nodup_targets
    (graph : Graph)
    (node : String) :
    (graph.targets node).Nodup := by
  unfold targets sortedTexts
  split
  · exact (List.mergeSort_perm _ _).nodup_iff.mpr (nodup_eraseDups _)
  · exact List.nodup_nil

namespace ReportsOnce

/-- Closing a cycle reports one that was not reported before. -/
theorem report
    {node target : String}
    {pending : List String}
    {below : List Frame}
    {search : Search}
    (reportsOnce : ReportsOnce ⟨⟨node, target :: pending⟩ :: below, search⟩)
    (distinct : (node :: below.map Frame.node).Nodup)
    (onPath : target ∈ node :: below.map Frame.node) :
    ReportsOnce
      ⟨⟨node, pending⟩ :: below,
        search.report (cycleTo target (node :: below.map Frame.node))⟩ := by
  obtain ⟨pendingDistinct, past, once⟩ := reportsOnce
  obtain ⟨topDistinct, belowDistinct⟩ := List.forall_mem_cons.mp pendingDistinct
  obtain ⟨targetDealtWith, restDistinct⟩ := List.nodup_cons.mp topDistinct
  refine ⟨List.forall_mem_cons.mpr ⟨restDistinct, belowDistinct⟩, ?_, ?_⟩
  · intro cycle isReported
    rcases List.mem_append.mp isReported with wasReported | isNew
    · rcases past cycle wasReported with
        ⟨member, isMember, isChecked, offPath⟩ | dealtWith
      · exact .inl ⟨member, isMember, List.mem_append_right _ isChecked, offPath⟩
      · exact .inr (dealtWith.fewer (List.subset_cons_self _ _))
    · obtain rfl := List.mem_singleton.mp isNew
      refine .inr ⟨[], _, below, rfl, reverse_cycleTo_isPrefix onPath distinct, ?_⟩
      intro first isFirst
      obtain rfl : target = first := Option.some.inj isFirst
      exact targetDealtWith
  · refine List.pairwise_append.mpr ⟨once, List.pairwise_singleton _ _, ?_⟩
    intro cycle wasReported closing isClosing
    obtain rfl := List.mem_singleton.mp isClosing
    exact not_sameNodes_cycleTo distinct onPath (past cycle wasReported)

/-- Passing over a target reports nothing. -/
theorem pass
    {node target : String}
    {pending : List String}
    {below : List Frame}
    {search : Search}
    (reportsOnce : ReportsOnce ⟨⟨node, target :: pending⟩ :: below, search⟩) :
    ReportsOnce ⟨⟨node, pending⟩ :: below, search⟩ := by
  obtain ⟨pendingDistinct, past, once⟩ := reportsOnce
  obtain ⟨topDistinct, belowDistinct⟩ := List.forall_mem_cons.mp pendingDistinct
  refine ⟨List.forall_mem_cons.mpr
    ⟨(List.nodup_cons.mp topDistinct).2, belowDistinct⟩, ?_, once⟩
  intro cycle isReported
  exact (past cycle isReported).imp id
    (fun dealtWith => dealtWith.fewer (List.subset_cons_self _ _))

/--
Going on to a new target reports nothing and puts no checked node on the path.
-/
theorem descend
    {graph : Graph}
    {node target : String}
    {pending : List String}
    {below : List Frame}
    {search : Search}
    (reportsOnce : ReportsOnce ⟨⟨node, target :: pending⟩ :: below, search⟩)
    (isNew : target ∉ search.checked) :
    ReportsOnce
      ⟨⟨target, graph.targets target⟩ :: ⟨node, target :: pending⟩ :: below,
        search⟩ := by
  obtain ⟨pendingDistinct, past, once⟩ := reportsOnce
  refine ⟨List.forall_mem_cons.mpr ⟨nodup_targets graph target, pendingDistinct⟩,
    ?_, once⟩
  intro cycle isReported
  rcases past cycle isReported with
    ⟨member, isMember, isChecked, offPath⟩ | dealtWith
  · refine .inl ⟨member, isMember, isChecked,
      List.not_mem_cons_of_ne_of_not_mem ?_ offPath⟩
    rintro rfl
    exact isNew isChecked
  · exact .inr (dealtWith.push _)

/-- A node that is done leaves behind the cycles that it closed. -/
theorem finish
    {node : String}
    {below : List Frame}
    {search : Search}
    (reportsOnce : ReportsOnce ⟨⟨node, []⟩ :: below, search⟩)
    (distinct : (node :: below.map Frame.node).Nodup)
    (nonempty : ∀ cycle ∈ search.cycles, cycle ≠ []) :
    ReportsOnce ⟨below, search.mark node⟩ := by
  obtain ⟨pendingDistinct, past, once⟩ := reportsOnce
  refine ⟨(List.forall_mem_cons.mp pendingDistinct).2, ?_, once⟩
  intro cycle isReported
  rcases past cycle isReported with
    ⟨member, isMember, isChecked, offPath⟩ | ⟨recent, frame, older, frames, starts,
      notPending⟩
  · exact .inl ⟨member, isMember, List.mem_cons_of_mem _ isChecked,
      fun onPath => offPath (List.mem_cons_of_mem _ onPath)⟩
  · cases recent with
    | nil =>
        obtain ⟨rfl, rfl⟩ := List.cons.inj frames
        -- The cycle starts, read backwards, with the node that is done.
        have nodeMember :=
          last_mem_of_reverse_isPrefix (nonempty cycle isReported) starts
        exact .inl ⟨node, nodeMember, List.mem_cons_self,
          (List.nodup_cons.mp distinct).1⟩
    | cons top between =>
        obtain ⟨_, rfl⟩ := List.cons.inj frames
        exact .inr ⟨between, frame, older, rfl, starts, notPending⟩

/-- Every step of an exploration keeps cycles from being reported twice. -/
theorem step
    {graph : Graph}
    {before after : State}
    (reportsOnce : ReportsOnce before)
    (sound : graph.Sound before)
    (step : graph.Step before after) :
    ReportsOnce after := by
  cases step with
  | report onPath => exact reportsOnce.report sound.distinct onPath
  | pass _ _ => exact reportsOnce.pass
  | descend _ isNew => exact reportsOnce.descend isNew
  | finish =>
      exact reportsOnce.finish sound.distinct
        (fun cycle isReported => (sound.areCycles cycle isReported).nonempty)

/-- Between two explorations any node that is not checked may be taken up. -/
theorem begin
    {graph : Graph}
    {search : Search}
    {node : String}
    (reportsOnce : ReportsOnce ⟨[], search⟩)
    (isNew : node ∉ search.checked) :
    ReportsOnce ⟨[⟨node, graph.targets node⟩], search⟩ := by
  obtain ⟨_, past, once⟩ := reportsOnce
  refine ⟨List.forall_mem_singleton.mpr (nodup_targets graph node), ?_, once⟩
  intro cycle isReported
  rcases past cycle isReported with
    ⟨member, isMember, isChecked, _⟩ | ⟨recent, _, _, frames, _⟩
  · refine .inl ⟨member, isMember, isChecked, ?_⟩
    rintro onPath
    obtain rfl : member = node := List.mem_singleton.mp onPath
    exact isNew isChecked
  · cases recent <;> cases frames

end ReportsOnce

/--
Every step of the whole search keeps it sound and cycles from
being reported twice.
-/
theorem Advance.keeps_reportsOnce
    {graph : Graph}
    {before after : Task}
    (advance : graph.Advance before after)
    (sound : graph.Sound before.state)
    (reportsOnce : ReportsOnce before.state) :
    graph.Sound after.state ∧ ReportsOnce after.state := by
  cases advance with
  | skip _ => exact ⟨sound, reportsOnce⟩
  | begin isNew => exact ⟨sound.begin, reportsOnce.begin isNew⟩
  | explore step => exact ⟨sound.step step, reportsOnce.step sound step⟩

/--
Every run of the whole search keeps it sound and cycles from
being reported twice.
-/
theorem Progress.keeps_reportsOnce
    {graph : Graph}
    {before after : Task}
    (progress : graph.Progress before after)
    (sound : graph.Sound before.state)
    (reportsOnce : ReportsOnce before.state) :
    graph.Sound after.state ∧ ReportsOnce after.state := by
  induction progress with
  | refl => exact ⟨sound, reportsOnce⟩
  | tail _ advance inductionHypothesis =>
      exact advance.keeps_reportsOnce inductionHypothesis.1 inductionHypothesis.2

/-- A search that has not begun has reported nothing. -/
theorem ReportsOnce.start : ReportsOnce ⟨[], Search.start⟩ where
  pendingDistinct := by simp
  past := by simp [Search.start]
  once := List.Pairwise.nil

/-- No two reported cycles hold the same nodes. -/
theorem pairwise_cycles
    (graph : Graph) :
    graph.cycles.Pairwise (fun first second => ¬ SameNodes first second) := by
  obtain ⟨search, sameCycles, progress⟩ := exists_progress_cycles graph
  rw [← sameCycles]
  exact (progress.keeps_reportsOnce (Sound.start graph) ReportsOnce.start).2.once

/-- From a node without endless paths no path leads back to the node. -/
theorem Settled.not_transGen
    {graph : Graph}
    {cycles : List (List String)}
    {node : String}
    (settled : graph.Settled cycles node) :
    ¬ TransGen (graph.Remains cycles) node node := by
  induction settled with
  | intro node _ inductionHypothesis =>
      intro returns
      obtain ⟨next, edge, back⟩ := TransGen.head'_iff.mp returns
      exact inductionHypothesis next edge (TransGen.tail' back edge)

/-- A member of a cycle leads back to itself. -/
theorem transGen_of_isCycle
    {graph : Graph}
    {cycle : List String}
    {node : String}
    (isCycle : IsCycle graph.Edge cycle)
    (member : node ∈ cycle) :
    TransGen graph.Edge node node := by
  obtain ⟨next, nextMember, edge⟩ := isCycle.exists_hop member
  exact TransGen.head' edge (isCycle.reaches nextMember member)

/--
Where every node has one target at most, every cycle is reported exactly once.
-/
theorem exists_only_report
    {graph : Graph}
    {cycle : List String}
    (unique : Relator.RightUnique graph.Edge)
    (isCycle : IsCycle graph.Edge cycle) :
    ∃ before reported after,
      graph.cycles = before ++ reported :: after ∧
        SameNodes reported cycle ∧
        ∀ other ∈ before ++ after, ¬ SameNodes other cycle := by
  obtain ⟨reported, isReported, same⟩ := exists_mem_cycles unique isCycle
  obtain ⟨before, after, shape⟩ := List.append_of_mem isReported
  have once := pairwise_cycles graph
  rw [shape, List.pairwise_append, List.pairwise_cons] at once
  obtain ⟨_, ⟨notLater, _⟩, notEarlier⟩ := once
  refine ⟨before, reported, after, shape, same, fun other isOther otherSame => ?_⟩
  rcases List.mem_append.mp isOther with isEarlier | isLater
  · exact notEarlier other isEarlier reported List.mem_cons_self
      (fun node => (otherSame node).trans (same node).symm)
  · exact notLater other isLater
      (fun node => (same node).trans (otherSame node).symm)

/--
Every run of the search comes to its end, and each ends alike.  What it reports
are cycles, no two of them with the same members, and without their closing
edges no node leads back to itself.  So nothing is reported exactly when no node
leads back to itself, a node that does not is in no report, and where every node
has one target at most, every cycle is reported exactly once.
-/
theorem search_reports_cycles_once
    (graph : Graph) :
    (Acc (fun later earlier => graph.Advance earlier later) graph.task ∧
      ∃ search : Search,
        search.cycles = graph.cycles ∧
          graph.Progress graph.task ⟨[], ⟨[], search⟩⟩ ∧
          ∀ final, graph.Progress graph.task final →
            (∀ next, ¬ graph.Advance final next) →
            final = ⟨[], ⟨[], search⟩⟩) ∧
    (∀ cycle ∈ graph.cycles, IsCycle graph.Edge cycle) ∧
    graph.cycles.Pairwise (fun first second => ¬ SameNodes first second) ∧
    (∀ node, ¬ TransGen (graph.Remains graph.cycles) node node) ∧
    (graph.cycles = [] ↔ ∀ node, ¬ TransGen graph.Edge node node) ∧
    (∀ node, ¬ TransGen graph.Edge node node →
      ∀ cycle ∈ graph.cycles, node ∉ cycle) ∧
    (Relator.RightUnique graph.Edge → ∀ cycle, IsCycle graph.Edge cycle →
      ∃ before reported after,
        graph.cycles = before ++ reported :: after ∧
          SameNodes reported cycle ∧
          ∀ other ∈ before ++ after, ¬ SameNodes other cycle) := by
  have onlyReturning : ∀ node, ¬ TransGen graph.Edge node node →
      ∀ cycle ∈ graph.cycles, node ∉ cycle :=
    fun node never cycle isReported member =>
      never (transGen_of_isCycle (isCycle_of_mem_cycles isReported) member)
  refine ⟨⟨Task.Within.acc _ (Task.within_task graph), exists_only_end graph⟩,
    fun cycle => isCycle_of_mem_cycles, pairwise_cycles graph,
    fun node => (settled_cycles graph node).not_transGen, ⟨?_, ?_⟩, onlyReturning,
    fun unique cycle => exists_only_report unique⟩
  · -- Without reports no edge is taken away.
    intro noReport node returns
    have noneCloses : ∀ source target, graph.Edge source target →
        graph.Remains graph.cycles source target := by
      intro source target edge
      refine ⟨edge, ?_⟩
      rintro ⟨cycle, isReported, _⟩
      rw [noReport] at isReported
      cases isReported
    exact (settled_cycles graph node).not_transGen
      (TransGen.mono noneCloses _ _ returns)
  · intro never
    refine List.eq_nil_iff_forall_not_mem.mpr fun cycle isReported => ?_
    obtain ⟨node, member⟩ :=
      List.exists_mem_of_ne_nil cycle (isCycle_of_mem_cycles isReported).nonempty
    exact onlyReturning node (never node) cycle isReported member

/-- Cycles that overlap, a diamond, and a target that is no node. -/
example :
    Graph.cycles [("a", ["b", "c"]), ("b", ["c", "a"]), ("c", ["a", "b"])] =
        [["a", "b"], ["a", "b", "c"], ["b", "c"]] ∧
      Graph.cycles [("top", ["left", "right"]), ("left", ["base"]),
        ("right", ["base"])] = [] := by
  cbv

/-- A node outside a cycle leads into it. -/
def lasso : Graph :=
  [("tail", ["a"]), ("a", ["b"]), ("b", ["a"])]

/--
Every node of the lasso has one target, so its cycle is reported once, from
where it is met.
-/
theorem cycles_lasso :
    Relator.RightUnique lasso.Edge ∧
      IsCycle lasso.Edge ["b", "a"] ∧
      ∃ before reported after,
        lasso.cycles = before ++ reported :: after ∧
          SameNodes reported ["b", "a"] ∧
          ∀ other ∈ before ++ after, ¬ SameNodes other ["b", "a"] := by
  have unique : Relator.RightUnique lasso.Edge := by
    rintro source first second
      ⟨firstTargets, firstEntry, isFirst⟩ ⟨secondTargets, secondEntry, isSecond⟩
    obtain rfl := Option.some.inj (firstEntry.symm.trans secondEntry)
    have isOnly : ∀ entry ∈ lasso, entry.2.length = 1 := by decide
    obtain ⟨target, rfl⟩ :=
      List.length_eq_one_iff.mp (isOnly _ (mem_of_lookup? firstEntry))
    rw [List.mem_singleton.mp isFirst, List.mem_singleton.mp isSecond]
  have isCycle : IsCycle lasso.Edge ["b", "a"] := by
    have onward : lasso.Edge "b" "a" := ⟨["a"], rfl, List.mem_singleton_self _⟩
    have back : lasso.Edge "a" "b" := ⟨["b"], rfl, List.mem_singleton_self _⟩
    refine ⟨by simp, by simp, by simpa using onward, ?_⟩
    rintro last isLast first isFirst
    obtain rfl : "a" = last := Option.some.inj isLast
    obtain rfl : "b" = first := Option.some.inj isFirst
    exact back
  exact ⟨unique, isCycle,
    (search_reports_cycles_once lasso).2.2.2.2.2.2 unique _ isCycle⟩

end DesignTokens.Graph
