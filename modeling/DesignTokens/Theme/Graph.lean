import DesignTokens.Text.Split

namespace DesignTokens

/-!
# Cycles of a graph

A depth-first search that reports a cycle whenever an edge leads back to a node
of the path being explored.  Two paths that meet in one node are no cycle.  The
members of a reported cycle count as checked, so that a cycle that is entered
again from outside is not reported twice.
-/

/-- Nodes in order, each with the targets of its edges. -/
abbrev Graph := List (String × List String)

/-- Texts from the smallest to the largest. -/
def sortedTexts (texts : List String) : List String :=
  texts.mergeSort (fun left right => decide (left ≤ right))

namespace Graph

/--
The targets of a node from the smallest to the largest; a target that is
no node has none.
-/
def targets (graph : Graph) (node : String) : List String :=
  match graph.find? (fun entry => entry.1 == node) with
  | some entry => sortedTexts entry.2.eraseDups
  | none => []

/-- Every node and every target. -/
def vertices (graph : Graph) : List String :=
  graph.map Prod.fst ++ graph.flatMap Prod.snd

/-- What a search has found out so far. -/
structure Search where
  /-- Nodes that need not be explored again. -/
  checked : List String
  /-- Cycles in the order in which they were closed. -/
  cycles : List (List String)

namespace Search

/-- A search that has not begun. -/
def start : Search :=
  ⟨[], []⟩

/-- Reports a cycle. -/
def report (search : Search) (cycle : List String) : Search :=
  ⟨cycle ++ search.checked, search.cycles ++ [cycle]⟩

/-- Marks a node as checked. -/
def mark (search : Search) (node : String) : Search :=
  ⟨node :: search.checked, search.cycles⟩

end Search

/--
The part of a path, last node first, from its latest visit of a node to its end.
-/
def cycleTo (node : String) (path : List String) : List String :=
  (node :: (path.takeWhile (fun other => other != node)).reverse)

/--
Explores a node below the nodes of a path, last node first.  The depth bounds
the length of the path, which never holds a node twice.
-/
def explore (graph : Graph) : Nat → List String → Search → String → Search
  | 0, _, search, _ => search
  | depth + 1, above, search, node =>
      let path := node :: above
      let explored := (graph.targets node).foldl
        (fun reached target =>
          if path.contains target then reached.report (cycleTo target path)
          else if reached.checked.contains target then reached
          else graph.explore depth path reached target)
        search
      explored.mark node

/-- Explores a node unless it is checked. -/
def exploreFrom (graph : Graph) (search : Search) (node : String) : Search :=
  if search.checked.contains node then search
  else graph.explore (graph.vertices.length + 1) [] search node

/--
The cycles of a graph, each as the list of its nodes in the order of its edges.
-/
def cycles (graph : Graph) : List (List String) :=
  ((graph.map Prod.fst).foldl graph.exploreFrom Search.start).cycles

end Graph

end DesignTokens
