import DesignTokens.Proofs.Graph.Edge
import Mathlib.Data.List.Nodup

namespace DesignTokens.Graph

/-!
# The search for cycles, step by step

Exploring a node is a run of a small machine.  Its state is the path being
explored, each node with the targets still to be looked at, and what has been
found out so far.  A target on the path closes a cycle, a checked one is passed
over, any other is explored first, and a node without targets left is done.

What one step keeps therefore holds of the whole search: reported lists are
cycles, and from a node that is done no path leads back to it once the closing
edges of the reported cycles are taken away.
-/

open Relation

/-- A node of the path being explored, with its targets that are not dealt with. -/
structure Frame where
  node : String
  pending : List String

/-- The path being explored, last node first, and what has been found out. -/
structure State where
  frames : List Frame
  search : Search

/-- The nodes of the path being explored, last node first. -/
def State.path (state : State) : List String :=
  state.frames.map Frame.node

/-- One step of the search. -/
inductive Step (graph : Graph) : State → State → Prop where
  /-- A target on the path closes a cycle. -/
  | report {node target : String} {pending : List String} {below : List Frame}
      {search : Search} :
      target ∈ node :: below.map Frame.node →
      Step graph
        ⟨⟨node, target :: pending⟩ :: below, search⟩
        ⟨⟨node, pending⟩ :: below,
          search.report (cycleTo target (node :: below.map Frame.node))⟩
  /-- A checked target off the path is passed over. -/
  | pass {node target : String} {pending : List String} {below : List Frame}
      {search : Search} :
      target ∉ node :: below.map Frame.node →
      target ∈ search.checked →
      Step graph
        ⟨⟨node, target :: pending⟩ :: below, search⟩
        ⟨⟨node, pending⟩ :: below, search⟩
  /-- Any other target is explored; it stays pending until it is checked. -/
  | descend {node target : String} {pending : List String} {below : List Frame}
      {search : Search} :
      target ∉ node :: below.map Frame.node →
      target ∉ search.checked →
      Step graph
        ⟨⟨node, target :: pending⟩ :: below, search⟩
        ⟨⟨target, graph.targets target⟩ :: ⟨node, target :: pending⟩ :: below,
          search⟩
  /-- A node whose targets are dealt with is checked. -/
  | finish {node : String} {below : List Frame} {search : Search} :
      Step graph ⟨⟨node, []⟩ :: below, search⟩ ⟨below, search.mark node⟩

/-- Any number of steps. -/
abbrev Run (graph : Graph) : State → State → Prop :=
  ReflTransGen graph.Step

/-- How exploring a node deals with one of its targets. -/
def visit (graph : Graph) (depth : Nat) (path : List String) (reached : Search)
    (target : String) : Search :=
  if path.contains target then reached.report (cycleTo target path)
  else if reached.checked.contains target then reached
  else graph.explore depth path reached target

/-- Exploring a node deals with its targets and marks it. -/
theorem explore_succ
    (graph : Graph)
    (depth : Nat)
    (above : List String)
    (search : Search)
    (node : String) :
    graph.explore (depth + 1) above search node =
      ((graph.targets node).foldl (graph.visit depth (node :: above)) search).mark
        node :=
  rfl

/-- A target is a vertex. -/
theorem mem_vertices_of_edge
    {graph : Graph}
    {source target : String}
    (edge : graph.Edge source target) :
    target ∈ graph.vertices := by
  obtain ⟨targets, isEntry, isTarget⟩ := edge
  refine List.mem_append_right _
    (List.mem_flatMap.mpr ⟨(source, targets), ?_, isTarget⟩)
  exact mem_of_lookup? isEntry

/--
Where exploring any target that is not on the path is a run that ends when the
target is checked, so is visiting targets of the open node one after another.
-/
theorem run_visits
    {graph : Graph}
    {depth : Nat}
    {node : String}
    {below : List Frame}
    (explores :
      ∀ (target : String) (pending : List String) (search : Search),
        target ∈ graph.targets node → target ∉ node :: below.map Frame.node →
          graph.Run
            ⟨⟨target, graph.targets target⟩ :: ⟨node, pending⟩ :: below, search⟩
            ⟨⟨node, pending⟩ :: below,
              graph.explore depth (node :: below.map Frame.node) search target⟩ ∧
          target ∈
            (graph.explore depth (node :: below.map Frame.node) search
              target).checked)
    {pending : List String}
    (areTargets : pending ⊆ graph.targets node)
    (search : Search) :
    graph.Run
      ⟨⟨node, pending⟩ :: below, search⟩
      ⟨⟨node, []⟩ :: below,
        pending.foldl (graph.visit depth (node :: below.map Frame.node))
          search⟩ := by
  induction pending generalizing search with
  | nil => exact .refl
  | cons target rest inductionHypothesis =>
      obtain ⟨isTarget, restTargets⟩ := List.cons_subset.mp areTargets
      have restRuns := inductionHypothesis restTargets
      rw [List.foldl_cons]
      by_cases onPath : target ∈ node :: below.map Frame.node
      · rw [visit, if_pos (by simpa using onPath)]
        exact (restRuns _).head (.report onPath)
      · by_cases isChecked : target ∈ search.checked
        · rw [visit, if_neg (by simpa using onPath),
            if_pos (by simpa using isChecked)]
          exact (restRuns _).head (.pass onPath isChecked)
        · rw [visit, if_neg (by simpa using onPath),
            if_neg (by simpa using isChecked)]
          obtain ⟨explored, nowChecked⟩ :=
            explores target (target :: rest) search isTarget onPath
          -- The target is checked when the search comes back to it, and is passed
          -- then.
          exact ((explored.head (.descend onPath isChecked)).tail
            (.pass onPath nowChecked)).trans (restRuns _)

/--
With room for the longest path, exploring a node is a run that ends when the
node is done and checked.
-/
theorem run_explore
    {graph : Graph}
    {depth : Nat}
    {node : String}
    {below : List Frame}
    {search : Search}
    (distinct : (node :: below.map Frame.node).Nodup)
    (areVertices : node :: below.map Frame.node ⊆ graph.vertices)
    (room : graph.vertices.length < depth + below.length) :
    graph.Run
      ⟨⟨node, graph.targets node⟩ :: below, search⟩
      ⟨below, graph.explore depth (below.map Frame.node) search node⟩ ∧
    node ∈ (graph.explore depth (below.map Frame.node) search node).checked := by
  induction depth generalizing node below search with
  | zero =>
      -- A path of distinct vertices is no longer than the list of vertices.
      have short := List.Nodup.length_le_of_subset distinct areVertices
      simp at short
      omega
  | succ depth inductionHypothesis =>
      have targetsRun :
          graph.Run ⟨⟨node, graph.targets node⟩ :: below, search⟩
            ⟨⟨node, []⟩ :: below,
              (graph.targets node).foldl
                (graph.visit depth (node :: below.map Frame.node)) search⟩ := by
        refine run_visits (fun target pending reached isTarget onPath => ?_)
          (List.Subset.refl _) search
        have isVertex := mem_vertices_of_edge (mem_targets.mp isTarget)
        apply @inductionHypothesis target (⟨node, pending⟩ :: below) reached
        · exact List.nodup_cons.mpr ⟨onPath, distinct⟩
        · exact List.cons_subset.mpr ⟨isVertex, areVertices⟩
        · rw [List.length_cons]
          omega
      rw [explore_succ]
      exact ⟨targetsRun.tail .finish, List.mem_cons_self⟩

/-- Whether an edge is the one that closes one of the cycles. -/
def Closes (cycles : List (List String)) (source target : String) : Prop :=
  ∃ cycle ∈ cycles, cycle.getLast? = some source ∧ cycle.head? = some target

/-- The edges that are left when those that close the cycles are taken away. -/
def Remains (graph : Graph) (cycles : List (List String)) (source target : String) :
    Prop :=
  graph.Edge source target ∧ ¬ Closes cycles source target

/-- From a node no endless path leads along the edges that are left. -/
def Settled (graph : Graph) (cycles : List (List String)) : String → Prop :=
  Acc (fun later earlier => graph.Remains cycles earlier later)

/-- Further cycles close the same edges and possibly others. -/
theorem Closes.append
    {cycles : List (List String)}
    {source target : String}
    (more : List (List String))
    (closes : Closes cycles source target) :
    Closes (cycles ++ more) source target := by
  obtain ⟨cycle, isCycle, ends⟩ := closes
  exact ⟨cycle, List.mem_append_left _ isCycle, ends⟩

/-- Further cycles leave fewer edges. -/
theorem Settled.append
    {graph : Graph}
    {cycles : List (List String)}
    {node : String}
    (more : List (List String))
    (settled : graph.Settled cycles node) :
    graph.Settled (cycles ++ more) node := by
  refine Subrelation.accessible ?_ settled
  rintro later earlier ⟨edge, notClosed⟩
  exact ⟨edge, fun closes => notClosed (closes.append more)⟩

/-- The cycle that a target closes is the end of the path, turned round. -/
theorem cycleTo_append
    {target : String}
    {recent : List String}
    (older : List String)
    (isLatest : target ∉ recent) :
    cycleTo target (recent ++ target :: older) = (recent ++ [target]).reverse := by
  have recentDiffers : ∀ node ∈ recent, (node != target) = true := by
    intro node isRecent
    simpa using fun same : node = target => isLatest (same ▸ isRecent)
  have taken :
      (recent ++ target :: older).takeWhile (fun other => other != target) =
        recent := by
    rw [List.takeWhile_append_of_pos recentDiffers]
    simp
  rw [cycleTo, taken, List.reverse_append]
  rfl

/--
What a target on the path closes is a cycle along the path, from the target
to the last node.
-/
theorem isCycle_cycleTo
    {graph : Graph}
    {node target : String}
    {above : List String}
    (distinct : (node :: above).Nodup)
    (follows :
      (node :: above).IsChain (fun later earlier => graph.Edge earlier later))
    (edge : graph.Edge node target)
    (onPath : target ∈ node :: above) :
    IsCycle graph.Edge (cycleTo target (node :: above)) ∧
      (cycleTo target (node :: above)).getLast? = some node ∧
      (cycleTo target (node :: above)).head? = some target ∧
      cycleTo target (node :: above) ⊆ node :: above := by
  obtain ⟨recent, older, shape⟩ := List.append_of_mem onPath
  rw [shape] at distinct follows
  have isLatest : target ∉ recent := by
    intro isRecent
    exact (List.nodup_append.mp distinct).2.2 target isRecent target (by simp) rfl
  have startsAt : (recent ++ [target]).head? = some node := by
    have sameStart := congrArg List.head? shape
    cases recent <;> simpa using sameStart.symm
  have whole : recent ++ target :: older = (recent ++ [target]) ++ older := by simp
  rw [shape, cycleTo_append older isLatest]
  rw [whole] at distinct follows
  have lastIs : (recent ++ [target]).reverse.getLast? = some node := by
    rw [List.getLast?_reverse, startsAt]
  have headIs : (recent ++ [target]).reverse.head? = some target := by simp
  refine ⟨⟨by simp, ?_, List.isChain_reverse.mpr follows.left_of_append, ?_⟩,
    lastIs, headIs, ?_⟩
  · exact List.nodup_reverse.mpr (List.nodup_append.mp distinct).1
  · intro last isLast first isFirst
    obtain rfl : node = last := Option.some.inj (lastIs.symm.trans isLast)
    obtain rfl : target = first := Option.some.inj (headIs.symm.trans isFirst)
    exact edge
  · intro member isMember
    rw [whole]
    exact List.mem_append_left _ (List.mem_reverse.mp isMember)

/-- What holds of the search after every step. -/
structure Sound (graph : Graph) (state : State) : Prop where
  distinct :
    state.path.Nodup
  follows :
    state.path.IsChain (fun later earlier => graph.Edge earlier later)
  pendingEdges :
    ∀ frame ∈ state.frames, ∀ target ∈ frame.pending, graph.Edge frame.node target
  /--
  An edge that is no longer pending is a closing one or leads to a
  node that is done.
  -/
  dealtWith :
    ∀ frame ∈ state.frames, ∀ target, graph.Edge frame.node target →
      target ∈ frame.pending ∨
        Closes state.search.cycles frame.node target ∨
        (target ∈ state.search.checked ∧ target ∉ state.path)
  settled :
    ∀ node ∈ state.search.checked, node ∉ state.path →
      graph.Settled state.search.cycles node
  areCycles :
    ∀ cycle ∈ state.search.cycles, IsCycle graph.Edge cycle

namespace Sound

/--
Taking a target from the open node keeps the search sound, when the target is
dealt with afterwards and everything that was dealt with stays so.
-/
theorem take
    {graph : Graph}
    {node target : String}
    {pending : List String}
    {below : List Frame}
    {search next : Search}
    (sound : graph.Sound ⟨⟨node, target :: pending⟩ :: below, search⟩)
    (isDone :
      Closes next.cycles node target ∨
        (target ∈ next.checked ∧ target ∉ node :: below.map Frame.node))
    (stays :
      ∀ source other,
        Closes search.cycles source other ∨
            (other ∈ search.checked ∧ other ∉ node :: below.map Frame.node) →
          Closes next.cycles source other ∨
            (other ∈ next.checked ∧ other ∉ node :: below.map Frame.node))
    (settled :
      ∀ other ∈ next.checked, other ∉ node :: below.map Frame.node →
        graph.Settled next.cycles other)
    (areCycles : ∀ cycle ∈ next.cycles, IsCycle graph.Edge cycle) :
    graph.Sound ⟨⟨node, pending⟩ :: below, next⟩ := by
  refine ⟨sound.distinct, sound.follows, ?_, ?_, settled, areCycles⟩
  · intro frame isFrame other isPending
    rcases List.mem_cons.mp isFrame with rfl | isBelow
    · exact sound.pendingEdges _ List.mem_cons_self other
        (List.mem_cons_of_mem _ isPending)
    · exact sound.pendingEdges frame (List.mem_cons_of_mem _ isBelow) other
        isPending
  · intro frame isFrame other otherEdge
    rcases List.mem_cons.mp isFrame with rfl | isBelow
    · rcases sound.dealtWith _ List.mem_cons_self other otherEdge with
        isPending | wasDone
      · rcases List.mem_cons.mp isPending with rfl | isLater
        · exact .inr isDone
        · exact .inl isLater
      · exact .inr (stays _ other wasDone)
    · exact (sound.dealtWith frame (List.mem_cons_of_mem _ isBelow) other
        otherEdge).imp_right (stays _ other)

/-- Closing a cycle keeps the search sound. -/
theorem report
    {graph : Graph}
    {node target : String}
    {pending : List String}
    {below : List Frame}
    {search : Search}
    (sound : graph.Sound ⟨⟨node, target :: pending⟩ :: below, search⟩)
    (onPath : target ∈ node :: below.map Frame.node) :
    graph.Sound
      ⟨⟨node, pending⟩ :: below,
        search.report (cycleTo target (node :: below.map Frame.node))⟩ := by
  have edge : graph.Edge node target :=
    sound.pendingEdges _ List.mem_cons_self target (by simp)
  obtain ⟨isCycle, lastIs, headIs, isPart⟩ :=
    isCycle_cycleTo sound.distinct sound.follows edge onPath
  refine sound.take (.inl ⟨_, by simp [Search.report], lastIs, headIs⟩) ?_ ?_ ?_
  · rintro source other (closes | ⟨isChecked, offPath⟩)
    · exact .inl (closes.append _)
    · exact .inr ⟨List.mem_append_right _ isChecked, offPath⟩
  · intro other isChecked offPath
    rcases List.mem_append.mp isChecked with isMember | wasChecked
    · exact (offPath (isPart isMember)).elim
    · exact (sound.settled other wasChecked offPath).append _
  · intro cycle isReported
    rcases List.mem_append.mp isReported with wasReported | isNew
    · exact sound.areCycles cycle wasReported
    · rw [List.mem_singleton.mp isNew]
      exact isCycle

/-- Passing over a checked target keeps the search sound. -/
theorem pass
    {graph : Graph}
    {node target : String}
    {pending : List String}
    {below : List Frame}
    {search : Search}
    (sound : graph.Sound ⟨⟨node, target :: pending⟩ :: below, search⟩)
    (offPath : target ∉ node :: below.map Frame.node)
    (isChecked : target ∈ search.checked) :
    graph.Sound ⟨⟨node, pending⟩ :: below, search⟩ :=
  sound.take (.inr ⟨isChecked, offPath⟩) (fun _ _ wasDone => wasDone) sound.settled
    sound.areCycles

/-- Going on to a new target keeps the search sound. -/
theorem descend
    {graph : Graph}
    {node target : String}
    {pending : List String}
    {below : List Frame}
    {search : Search}
    (sound : graph.Sound ⟨⟨node, target :: pending⟩ :: below, search⟩)
    (offPath : target ∉ node :: below.map Frame.node)
    (isNew : target ∉ search.checked) :
    graph.Sound
      ⟨⟨target, graph.targets target⟩ :: ⟨node, target :: pending⟩ :: below,
        search⟩ := by
  obtain ⟨distinct, follows, pendingEdges, dealtWith, settled, areCycles⟩ := sound
  have edge : graph.Edge node target :=
    pendingEdges _ List.mem_cons_self target (by simp)
  refine ⟨List.nodup_cons.mpr ⟨offPath, distinct⟩,
    List.isChain_cons_cons.mpr ⟨edge, follows⟩, ?_, ?_, ?_, areCycles⟩
  · intro frame isFrame other isPending
    rcases List.mem_cons.mp isFrame with rfl | isBelow
    · exact mem_targets.mp isPending
    · exact pendingEdges frame isBelow other isPending
  · intro frame isFrame other otherEdge
    rcases List.mem_cons.mp isFrame with rfl | isBelow
    · exact .inl (mem_targets.mpr otherEdge)
    · rcases dealtWith frame isBelow other otherEdge with
        isPending | closes | ⟨isChecked, otherOff⟩
      · exact .inl isPending
      · exact .inr (.inl closes)
      · -- A node that is done differs from the new one, which is not checked.
        refine .inr
          (.inr ⟨isChecked, List.not_mem_cons_of_ne_of_not_mem ?_ otherOff⟩)
        rintro rfl
        exact isNew isChecked
  · intro other isChecked otherOff
    exact settled other isChecked
      (fun member => otherOff (List.mem_cons_of_mem _ member))

/-- Marking a node whose targets are dealt with keeps the search sound. -/
theorem finish
    {graph : Graph}
    {node : String}
    {below : List Frame}
    {search : Search}
    (sound : graph.Sound ⟨⟨node, []⟩ :: below, search⟩) :
    graph.Sound ⟨below, search.mark node⟩ := by
  obtain ⟨distinct, follows, pendingEdges, dealtWith, settled, areCycles⟩ := sound
  refine ⟨(List.nodup_cons.mp distinct).2, follows.tail, ?_, ?_, ?_, areCycles⟩
  · intro frame isFrame
    exact pendingEdges frame (List.mem_cons_of_mem _ isFrame)
  · intro frame isFrame other otherEdge
    rcases dealtWith frame (List.mem_cons_of_mem _ isFrame) other otherEdge with
      isPending | closes | ⟨isChecked, otherOff⟩
    · exact .inl isPending
    · exact .inr (.inl closes)
    · exact .inr (.inr ⟨List.mem_cons_of_mem _ isChecked,
        fun member => otherOff (List.mem_cons_of_mem _ member)⟩)
  · intro other isChecked otherOff
    by_cases isNode : other = node
    · subst isNode
      -- Every edge that is left leads from the node to one that is settled.
      refine Acc.intro _ ?_
      rintro next ⟨edge, notClosed⟩
      rcases dealtWith _ List.mem_cons_self next edge with
        isPending | closes | ⟨isDone, nextOff⟩
      · cases isPending
      · exact (notClosed closes).elim
      · exact settled next isDone nextOff
    · have wasChecked : other ∈ search.checked :=
        (List.mem_cons.mp isChecked).resolve_left isNode
      exact settled other wasChecked
        (List.not_mem_cons_of_ne_of_not_mem isNode otherOff)

/-- Every step keeps the search sound. -/
theorem step
    {graph : Graph}
    {before after : State}
    (sound : graph.Sound before)
    (step : graph.Step before after) :
    graph.Sound after := by
  cases step with
  | report onPath => exact sound.report onPath
  | pass offPath isChecked => exact sound.pass offPath isChecked
  | descend offPath isNew => exact sound.descend offPath isNew
  | finish => exact sound.finish

/-- Every run keeps the search sound. -/
theorem run
    {graph : Graph}
    {before after : State}
    (sound : graph.Sound before)
    (run : graph.Run before after) :
    graph.Sound after := by
  induction run with
  | refl => exact sound
  | tail _ step inductionHypothesis => exact inductionHypothesis.step step

end Sound

end DesignTokens.Graph
