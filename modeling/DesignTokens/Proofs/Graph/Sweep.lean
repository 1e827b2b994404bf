import DesignTokens.Proofs.Graph.Cycles
import DesignTokens.Remaining

namespace DesignTokens.Graph

/-!
# The search as a whole

The search takes up one node after the other, so as a whole it is a run of a
machine that keeps the nodes still to be taken up beside the path being
explored.  Taking up a node uses up a vertex that is neither on the path nor
checked, and every other step leaves less to do before the next one is taken up.
So no run goes on for ever, and a run that cannot go on has found the cycles of
the graph.
-/

open Relation

/-- The nodes that are still to be taken up, and the exploration under way. -/
structure Task where
  starts : List String
  state : State

/-- The task of a search that has not begun. -/
def task (graph : Graph) : Task :=
  ⟨graph.map Prod.fst, ⟨[], Search.start⟩⟩

/-- One step of the whole search. -/
inductive Advance (graph : Graph) : Task → Task → Prop where
  /-- A checked node is not taken up. -/
  | skip {node : String} {starts : List String} {search : Search} :
      node ∈ search.checked →
      Advance graph ⟨node :: starts, ⟨[], search⟩⟩ ⟨starts, ⟨[], search⟩⟩
  /-- Any other node is taken up. -/
  | begin {node : String} {starts : List String} {search : Search} :
      node ∉ search.checked →
      Advance graph
        ⟨node :: starts, ⟨[], search⟩⟩
        ⟨starts, ⟨[⟨node, graph.targets node⟩], search⟩⟩
  /-- The exploration under way goes on. -/
  | explore {starts : List String} {before after : State} :
      graph.Step before after →
      Advance graph ⟨starts, before⟩ ⟨starts, after⟩

/-- Any number of steps of the whole search. -/
abbrev Progress (graph : Graph) : Task → Task → Prop :=
  ReflTransGen graph.Advance

/-- A run of an exploration is part of a run of the whole search. -/
theorem Run.progress
    {graph : Graph}
    {before after : State}
    (run : graph.Run before after)
    (starts : List String) :
    graph.Progress ⟨starts, before⟩ ⟨starts, after⟩ := by
  induction run with
  | refl => exact .refl
  | tail _ step inductionHypothesis =>
      exact inductionHypothesis.tail (.explore step)

/-- Exploring from several nodes is a run that takes them all up. -/
theorem progress_foldl_exploreFrom
    {graph : Graph}
    {nodes : List String}
    (areNodes : nodes ⊆ graph.map Prod.fst)
    (search : Search) :
    graph.Progress
      ⟨nodes, ⟨[], search⟩⟩
      ⟨[], ⟨[], nodes.foldl graph.exploreFrom search⟩⟩ := by
  induction nodes generalizing search with
  | nil => exact .refl
  | cons node rest inductionHypothesis =>
      obtain ⟨isNode, restNodes⟩ := List.cons_subset.mp areNodes
      rw [List.foldl_cons]
      refine ReflTransGen.trans ?_ (inductionHypothesis restNodes _)
      unfold exploreFrom
      split
      · rename_i isChecked
        exact .single (.skip (by simpa using isChecked))
      · rename_i notChecked
        have isVertex : node ∈ graph.vertices := List.mem_append_left _ isNode
        obtain ⟨run, _⟩ :=
          @run_explore graph (graph.vertices.length + 1) node [] search
            (List.nodup_singleton node) (by simpa using isVertex) (by simp)
        exact (run.progress rest).head (.begin (by simpa using notChecked))

/--
A run of the whole search takes up every node and ends with the
cycles of the graph.
-/
theorem exists_progress_cycles
    (graph : Graph) :
    ∃ search : Search,
      search.cycles = graph.cycles ∧ graph.Progress graph.task ⟨[], ⟨[], search⟩⟩ :=
  ⟨_, rfl, progress_foldl_exploreFrom (List.Subset.refl _) Search.start⟩

/-- An exploration goes on in one way at most. -/
theorem Step.unique
    (graph : Graph) :
    Relator.RightUnique graph.Step := by
  intro state first second firstStep secondStep
  cases firstStep with
  | report onPath =>
      cases secondStep with
      | report _ => rfl
      | pass offPath _ => exact (offPath onPath).elim
      | descend offPath _ => exact (offPath onPath).elim
  | pass offPath isChecked =>
      cases secondStep with
      | report onPath => exact (offPath onPath).elim
      | pass _ _ => rfl
      | descend _ isNew => exact (isNew isChecked).elim
  | descend offPath isNew =>
      cases secondStep with
      | report onPath => exact (offPath onPath).elim
      | pass _ isChecked => exact (isNew isChecked).elim
      | descend _ _ => rfl
  | finish =>
      cases secondStep with
      | finish => rfl

/-- Without a path there is nothing to explore. -/
theorem not_step_of_no_path
    {graph : Graph}
    {search : Search}
    {after : State} :
    ¬ graph.Step ⟨[], search⟩ after := by
  intro step
  cases step

/-- The whole search goes on in one way at most. -/
theorem Advance.unique
    (graph : Graph) :
    Relator.RightUnique graph.Advance := by
  intro before first second firstAdvance secondAdvance
  cases firstAdvance with
  | skip isChecked =>
      cases secondAdvance with
      | skip _ => rfl
      | begin isNew => exact (isNew isChecked).elim
      | explore step => exact (not_step_of_no_path step).elim
  | begin isNew =>
      cases secondAdvance with
      | skip isChecked => exact (isNew isChecked).elim
      | begin _ => rfl
      | explore step => exact (not_step_of_no_path step).elim
  | explore firstStep =>
      cases secondAdvance with
      | skip _ => exact (not_step_of_no_path firstStep).elim
      | begin _ => exact (not_step_of_no_path firstStep).elim
      | explore secondStep => rw [Step.unique graph firstStep secondStep]

/-- Without a node to take up and without a path the search cannot go on. -/
theorem not_advance_of_done
    {graph : Graph}
    {search : Search}
    {after : Task} :
    ¬ graph.Advance ⟨[], ⟨[], search⟩⟩ after := by
  rintro (_ | _ | step)
  exact not_step_of_no_path step

/--
Every run of the whole search that cannot go on ends alike, with the
cycles of the graph.
-/
theorem exists_only_end
    (graph : Graph) :
    ∃ search : Search,
      search.cycles = graph.cycles ∧
        graph.Progress graph.task ⟨[], ⟨[], search⟩⟩ ∧
        ∀ final, graph.Progress graph.task final →
          (∀ next, ¬ graph.Advance final next) →
          final = ⟨[], ⟨[], search⟩⟩ := by
  obtain ⟨search, sameCycles, toEnd⟩ := exists_progress_cycles graph
  refine ⟨search, sameCycles, toEnd, fun final progress isLast => ?_⟩
  have endsHere : EndsAt graph.Advance graph.task final := ⟨progress, isLast⟩
  exact endsHere.unique (Advance.unique graph) ⟨toEnd, fun _ => not_advance_of_done⟩

/-- All that is still to be taken up or looked at is a vertex. -/
structure Task.Within (graph : Graph) (task : Task) : Prop where
  starts :
    task.starts ⊆ graph.vertices
  pending :
    ∀ frame ∈ task.state.frames, frame.pending ⊆ graph.vertices

theorem targets_subset_vertices
    (graph : Graph)
    (node : String) :
    graph.targets node ⊆ graph.vertices :=
  fun _ isTarget => mem_vertices_of_edge (mem_targets.mp isTarget)

namespace Task

theorem within_task
    (graph : Graph) :
    graph.task.Within graph where
  starts := List.subset_append_left _ _
  pending := by simp [task]

/-- Every step stays within the vertices. -/
theorem Within.advance
    {graph : Graph}
    {before after : Task}
    (within : before.Within graph)
    (advance : graph.Advance before after) :
    after.Within graph := by
  obtain ⟨starts, pending⟩ := within
  cases advance with
  | skip _ => exact ⟨(List.cons_subset.mp starts).2, pending⟩
  | begin _ =>
      refine ⟨(List.cons_subset.mp starts).2, ?_⟩
      intro frame isFrame
      obtain rfl := List.mem_singleton.mp isFrame
      exact targets_subset_vertices graph _
  | explore step =>
      refine ⟨starts, ?_⟩
      cases step with
      | report _ =>
          obtain ⟨top, below⟩ := List.forall_mem_cons.mp pending
          exact List.forall_mem_cons.mpr ⟨(List.cons_subset.mp top).2, below⟩
      | pass _ _ =>
          obtain ⟨top, below⟩ := List.forall_mem_cons.mp pending
          exact List.forall_mem_cons.mpr ⟨(List.cons_subset.mp top).2, below⟩
      | descend _ _ =>
          exact List.forall_mem_cons.mpr ⟨targets_subset_vertices graph _, pending⟩
      | finish => exact (List.forall_mem_cons.mp pending).2

/-- How many vertices are neither on the path nor checked. -/
def fresh (graph : Graph) (task : Task) : Nat :=
  remaining graph.vertices (task.state.path ++ task.state.search.checked)

/-- How much there is to do before another vertex is taken up. -/
def load (task : Task) : Nat :=
  task.starts.length +
    task.state.frames.foldr (fun frame known => frame.pending.length + 1 + known) 0

/--
Every step takes up a fresh vertex or leaves less to do before the next
one is taken up.
-/
theorem Within.fresh_lt_or_load_lt
    {graph : Graph}
    {before after : Task}
    (within : before.Within graph)
    (advance : graph.Advance before after) :
    after.fresh graph < before.fresh graph ∨
      (after.fresh graph ≤ before.fresh graph ∧ after.load < before.load) := by
  cases advance with
  | skip _ => exact .inr ⟨Nat.le_refl _, by simp [load]⟩
  | begin isNew =>
      have isVertex := within.starts List.mem_cons_self
      exact .inl (remaining_cons_lt isVertex (by simpa [State.path] using isNew))
  | explore step =>
      cases step with
      | @report node target pending below search onPath =>
          -- The members of a cycle are on the path, so checking them uses up no
          -- fresh vertex.
          refine .inr ⟨remaining_le_of_subset ?_, by simp [load]⟩
          exact List.append_subset.mpr
            ⟨List.subset_append_left _ _, fun _ isChecked =>
              List.mem_append_right _ (List.mem_append_right _ isChecked)⟩
      | pass _ _ => exact .inr ⟨Nat.le_refl _, by simp [load]⟩
      | @descend node target pending below search offPath isNew =>
          have isVertex := within.pending _ List.mem_cons_self List.mem_cons_self
          have isFresh :
              target ∉ (node :: below.map Frame.node) ++ search.checked := by
            rw [List.mem_append, not_or]
            exact ⟨offPath, isNew⟩
          exact .inl (remaining_cons_lt isVertex isFresh)
      | finish =>
          refine .inr ⟨remaining_le_of_subset ?_, by simp [load]⟩
          intro passed isPassed
          simp only [State.path, List.map_cons, List.cons_append, List.mem_cons,
            List.mem_append, Search.mark] at isPassed ⊢
          tauto

/-- No run from a task within the vertices goes on for ever. -/
theorem Within.acc
    {graph : Graph}
    (task : Task)
    (within : task.Within graph) :
    Acc (fun later earlier => graph.Advance earlier later) task :=
  Acc.intro task fun later advance => acc later (within.advance advance)
termination_by (task.fresh graph, task.load)
decreasing_by
  rcases within.fresh_lt_or_load_lt advance with fewer | ⟨noMore, less⟩
  · exact Prod.Lex.left _ _ fewer
  · rcases Nat.lt_or_eq_of_le noMore with fewer | same
    · exact Prod.Lex.left _ _ fewer
    · rw [same]
      exact Prod.Lex.right _ less

end Task

end DesignTokens.Graph
