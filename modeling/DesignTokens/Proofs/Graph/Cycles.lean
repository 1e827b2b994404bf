import DesignTokens.Proofs.Graph.Search

namespace DesignTokens.Graph

/-!
# The cycles of a graph

The search starts from every node that is not checked yet.  In the end every
node is checked, so the closing edges of the reported cycles meet every cycle of
the graph.  Where every node has one target at most, this means that the members
of every cycle are reported.
-/

/-- A step forgets no checked node. -/
theorem Step.checked_subset
    {graph : Graph}
    {before after : State}
    (step : graph.Step before after) :
    before.search.checked ⊆ after.search.checked := by
  cases step with
  | report _ => exact List.subset_append_right _ _
  | pass _ _ => exact List.Subset.refl _
  | descend _ _ => exact List.Subset.refl _
  | finish => exact List.subset_cons_self _ _

/-- A run forgets no checked node. -/
theorem Run.checked_subset
    {graph : Graph}
    {before after : State}
    (run : graph.Run before after) :
    before.search.checked ⊆ after.search.checked := by
  induction run with
  | refl => exact List.Subset.refl _
  | tail _ step inductionHypothesis =>
      exact List.Subset.trans inductionHypothesis step.checked_subset

/-- A search that has not begun is sound. -/
theorem Sound.start
    (graph : Graph) :
    graph.Sound ⟨[], Search.start⟩ where
  distinct := List.nodup_nil
  follows := List.isChain_nil
  pendingEdges := by simp
  dealtWith := by simp
  settled := by simp [Search.start]
  areCycles := by simp [Search.start]

/-- Between two explorations any node may be taken up. -/
theorem Sound.begin
    {graph : Graph}
    {search : Search}
    {node : String}
    (sound : graph.Sound ⟨[], search⟩) :
    graph.Sound ⟨[⟨node, graph.targets node⟩], search⟩ where
  distinct := List.nodup_singleton node
  follows := List.isChain_singleton node
  pendingEdges := by
    intro frame isFrame target isPending
    obtain rfl := List.mem_singleton.mp isFrame
    exact mem_targets.mp isPending
  dealtWith := by
    intro frame isFrame target edge
    obtain rfl := List.mem_singleton.mp isFrame
    exact .inl (mem_targets.mpr edge)
  settled := by
    intro other isChecked _
    exact sound.settled other isChecked (by simp [State.path])
  areCycles := sound.areCycles

/--
Exploring from one more node keeps the search sound, checks the node and
forgets nothing.
-/
theorem sound_exploreFrom
    {graph : Graph}
    {search : Search}
    {node : String}
    (sound : graph.Sound ⟨[], search⟩)
    (isNode : node ∈ graph.map Prod.fst) :
    graph.Sound ⟨[], graph.exploreFrom search node⟩ ∧
      node ∈ (graph.exploreFrom search node).checked ∧
      search.checked ⊆ (graph.exploreFrom search node).checked := by
  unfold exploreFrom
  split
  · rename_i isChecked
    exact ⟨sound, by simpa using isChecked, List.Subset.refl _⟩
  · have isVertex : node ∈ graph.vertices := List.mem_append_left _ isNode
    obtain ⟨run, nowChecked⟩ :=
      @run_explore graph (graph.vertices.length + 1) node [] search
        (List.nodup_singleton node) (by simpa using isVertex) (by simp)
    exact ⟨sound.begin.run run, nowChecked, run.checked_subset⟩

/--
Exploring from several nodes keeps the search sound, checks them all and
forgets nothing.
-/
theorem sound_foldl_exploreFrom
    {graph : Graph}
    {nodes : List String}
    {search : Search}
    (sound : graph.Sound ⟨[], search⟩)
    (areNodes : nodes ⊆ graph.map Prod.fst) :
    graph.Sound ⟨[], nodes.foldl graph.exploreFrom search⟩ ∧
      nodes ⊆ (nodes.foldl graph.exploreFrom search).checked ∧
      search.checked ⊆ (nodes.foldl graph.exploreFrom search).checked := by
  induction nodes generalizing search with
  | nil => exact ⟨sound, List.nil_subset _, List.Subset.refl _⟩
  | cons node rest inductionHypothesis =>
      obtain ⟨isNode, restNodes⟩ := List.cons_subset.mp areNodes
      obtain ⟨nodeSound, nodeChecked, kept⟩ := sound_exploreFrom sound isNode
      obtain ⟨restSound, restChecked, restKept⟩ :=
        inductionHypothesis nodeSound restNodes
      rw [List.foldl_cons]
      exact ⟨restSound, List.cons_subset.mpr ⟨restKept nodeChecked, restChecked⟩,
        List.Subset.trans kept restKept⟩

/-- The finished search is sound and has checked every node. -/
theorem sound_cycles
    (graph : Graph) :
    ∃ search : Search,
      search.cycles = graph.cycles ∧
        graph.Sound ⟨[], search⟩ ∧
        graph.map Prod.fst ⊆ search.checked := by
  obtain ⟨sound, checked, _⟩ :=
    sound_foldl_exploreFrom (Sound.start graph)
      (List.Subset.refl (graph.map Prod.fst))
  exact ⟨_, rfl, sound, checked⟩

/-- Every reported list is a cycle of the graph, in the order of its edges. -/
theorem isCycle_of_mem_cycles
    {graph : Graph}
    {cycle : List String}
    (isReported : cycle ∈ graph.cycles) :
    IsCycle graph.Edge cycle := by
  obtain ⟨search, sameCycles, sound, _⟩ := sound_cycles graph
  exact sound.areCycles cycle (sameCycles ▸ isReported)

/--
Without the closing edges of the reported cycles no node begins an endless path.
-/
theorem settled_cycles
    (graph : Graph)
    (node : String) :
    graph.Settled graph.cycles node := by
  obtain ⟨search, sameCycles, sound, allChecked⟩ := sound_cycles graph
  rw [← sameCycles]
  by_cases isNode : node ∈ graph.map Prod.fst
  · exact sound.settled node (allChecked isNode) (by simp [State.path])
  · refine Acc.intro _ ?_
    rintro next ⟨⟨targets, isEntry, _⟩, _⟩
    exact (isNode (List.mem_map.mpr ⟨_, mem_of_lookup? isEntry, rfl⟩)).elim

/-- Every cycle of a graph has an edge that closes a reported cycle. -/
theorem exists_closing_edge
    {graph : Graph}
    {cycle : List String}
    (isCycle : IsCycle graph.Edge cycle) :
    ∃ source ∈ cycle,
      ∃ target, graph.Edge source target ∧ Closes graph.cycles source target := by
  by_contra noneCloses
  have neverEnds : ∀ node, graph.Settled graph.cycles node → node ∉ cycle := by
    intro node settled
    induction settled with
    | intro node _ inductionHypothesis =>
        intro member
        obtain ⟨next, nextMember, edge⟩ := isCycle.exists_hop member
        have notClosed : ¬ Closes graph.cycles node next :=
          fun closes => noneCloses ⟨node, member, next, edge, closes⟩
        exact inductionHypothesis next ⟨edge, notClosed⟩ nextMember
  obtain ⟨node, member⟩ := List.exists_mem_of_ne_nil cycle isCycle.nonempty
  exact neverEnds node (settled_cycles graph node) member

/--
Where every node has one target at most, the members of every
cycle are reported.
-/
theorem exists_mem_cycles
    {graph : Graph}
    {cycle : List String}
    (unique : Relator.RightUnique graph.Edge)
    (isCycle : IsCycle graph.Edge cycle) :
    ∃ reported ∈ graph.cycles, ∀ node, node ∈ reported ↔ node ∈ cycle := by
  obtain ⟨source, member, target, _, reported, isReported, lastIs, _⟩ :=
    exists_closing_edge isCycle
  have reportedMember : source ∈ reported := List.mem_of_getLast? lastIs
  refine ⟨reported, isReported, fun node => ?_⟩
  exact (isCycle_of_mem_cycles isReported).mem_iff_of_common isCycle unique
    reportedMember member

end DesignTokens.Graph
