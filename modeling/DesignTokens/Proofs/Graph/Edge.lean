import DesignTokens.Proofs.Walk
import DesignTokens.Theme.References

namespace DesignTokens

/-!
# Edges of a graph

A graph is read as a mapping from nodes to their targets.  The graph of a mode
has one node for every key whose token is a reference, and the one edge of that
node is the hop that following the reference takes.
-/

/-- Erasing repetitions leaves none. -/
theorem nodup_eraseDups
    (items : List String) :
    items.eraseDups.Nodup := by
  match items with
  | [] => simp
  | first :: rest =>
      rw [List.eraseDups_cons]
      have shorter : (rest.filter (fun other => !other == first)).length ≤
          rest.length :=
        List.length_filter_le _ rest
      refine List.nodup_cons.mpr ⟨?_, nodup_eraseDups _⟩
      intro repeated
      simp at repeated
termination_by items.length

namespace Graph

/-- Whether a graph has an edge from one node to another. -/
def Edge (graph : Graph) (source target : String) : Prop :=
  ∃ targets, Wire.lookup? source graph = some targets ∧ target ∈ targets

/-- The first entry of a node is what looking the node up gives. -/
theorem map_find?
    (graph : Graph)
    (node : String) :
    (graph.find? (fun entry => entry.1 == node)).map Prod.snd =
      Wire.lookup? node graph := by
  induction graph with
  | nil => rfl
  | cons entry rest inductionHypothesis =>
      by_cases sameNode : entry.1 = node
      · simp [Wire.lookup?, sameNode]
      · simpa [Wire.lookup?, sameNode] using inductionHypothesis

/-- The sorted targets of a node are those to which it has an edge. -/
theorem mem_targets
    {graph : Graph}
    {source target : String} :
    target ∈ graph.targets source ↔ graph.Edge source target := by
  have sameEntry := graph.map_find? source
  unfold targets Edge sortedTexts
  rw [← sameEntry]
  cases graph.find? (fun entry => entry.1 == source) <;> simp

/-- Looking up a node in a graph whose entries are made node by node. -/
theorem lookup?_filterMap
    {toEntry : String → Option (String × List String)}
    (keepsNode : ∀ node entry, toEntry node = some entry → entry.1 = node)
    (nodes : List String)
    (node : String) :
    Wire.lookup? node (nodes.filterMap toEntry) =
      if node ∈ nodes then (toEntry node).map Prod.snd else none := by
  induction nodes with
  | nil => rfl
  | cons first rest inductionHypothesis =>
      cases made : toEntry first with
      | none =>
          rw [List.filterMap_cons_none made, inductionHypothesis]
          by_cases isFirst : node = first
          · subst isFirst
            simp [made]
          · simp [isFirst]
      | some entry =>
          rw [List.filterMap_cons_some made]
          have sameNode := keepsNode first entry made
          by_cases isFirst : node = first
          · subst isFirst
            simp [Wire.lookup?, sameNode, made]
          · have differs : entry.1 ≠ node := by
              rw [sameNode]
              exact Ne.symm isFirst
            simp [Wire.lookup?, differs, isFirst, inductionHypothesis]

end Graph

/-- A value has a reference when it is one. -/
theorem TokenValue.reference?_eq_some
    {value : TokenValue}
    {reference : Reference} :
    value.reference? = some reference ↔ value = .reference reference := by
  cases value <;> simp [TokenValue.reference?]

namespace Theme

/-- Whether following the reference at one key leads to another key. -/
def LeadsTo (theme : Theme) (mode : Label) (source target : String) : Prop :=
  ∃ token reference,
    theme.find? source mode = some token ∧
      token.value = .reference reference ∧
      reference.path = target

/-- At most one key is reached by following the reference at a key. -/
theorem LeadsTo.unique
    (theme : Theme)
    (mode : Label) :
    Relator.RightUnique (theme.LeadsTo mode) := by
  rintro source first second
    ⟨firstToken, firstReference, firstFound, firstValue, rfl⟩
    ⟨secondToken, secondReference, secondFound, secondValue, rfl⟩
  obtain rfl : firstToken = secondToken :=
    Option.some.inj (firstFound.symm.trans secondFound)
  cases firstValue.symm.trans secondValue
  rfl

/-- An edge starts at the key for which it is made. -/
theorem edge?_fst
    {theme : Theme}
    {mode : Label}
    {key : String}
    {entry : String × List String}
    (made : theme.edge? mode key = some entry) :
    entry.1 = key := by
  unfold edge? at made
  split at made
  · obtain ⟨reference, _, rfl⟩ := Option.map_eq_some_iff.mp made
    rfl
  · cases made

/--
A node of the graph of a mode is a key whose token is a reference,
with its one target.
-/
theorem lookup?_referenceGraph
    {theme : Theme}
    {mode : Label}
    {key : String}
    {targets : List String} :
    Wire.lookup? key (theme.referenceGraph mode) = some targets ↔
      ∃ token reference,
        theme.find? key mode = some token ∧
          token.value = .reference reference ∧
          targets = [reference.path] := by
  unfold referenceGraph
  rw [Graph.lookup?_filterMap (fun _ _ made => edge?_fst made)]
  constructor
  · intro isEntry
    split at isEntry
    · obtain ⟨entry, made, rfl⟩ := Option.map_eq_some_iff.mp isEntry
      unfold edge? at made
      split at made
      · rename_i token isThere
        obtain ⟨reference, isReference, rfl⟩ := Option.map_eq_some_iff.mp made
        exact ⟨token, reference, isThere,
          TokenValue.reference?_eq_some.mp isReference, rfl⟩
      · cases made
    · cases isEntry
  · rintro ⟨token, reference, isThere, isReference, rfl⟩
    -- What is found is a key of the theme, so the graph has an entry for it.
    have isKey := mem_keys_of_find? isThere
    simp [isKey, edge?, isThere, isReference, TokenValue.reference?]

/--
The edges of the graph of a mode are the hops that references take in that mode.
-/
theorem edge_referenceGraph
    {theme : Theme}
    {mode : Label}
    {source target : String} :
    (theme.referenceGraph mode).Edge source target ↔
      theme.LeadsTo mode source target := by
  constructor
  · rintro ⟨targets, isEntry, isTarget⟩
    obtain ⟨token, reference, isThere, isReference, rfl⟩ :=
      lookup?_referenceGraph.mp isEntry
    exact ⟨token, reference, isThere, isReference,
      (List.mem_singleton.mp isTarget).symm⟩
  · rintro ⟨token, reference, isThere, isReference, rfl⟩
    exact ⟨[reference.path],
      lookup?_referenceGraph.mpr ⟨token, reference, isThere, isReference, rfl⟩,
      by simp⟩

/-- The graph of a mode has one entry for each of its nodes. -/
theorem nodup_referenceGraph
    (theme : Theme)
    (mode : Label) :
    ((theme.referenceGraph mode).map Prod.fst).Nodup := by
  have isFiltered :
      ∀ keys : List String,
        (keys.filterMap (theme.edge? mode)).map Prod.fst =
          keys.filter (fun key => (theme.edge? mode key).isSome) := by
    intro keys
    induction keys with
    | nil => rfl
    | cons key rest inductionHypothesis =>
        cases made : theme.edge? mode key with
        | none => simp [made, inductionHypothesis]
        | some entry => simp [made, inductionHypothesis, edge?_fst made]
  unfold referenceGraph
  rw [isFiltered]
  exact (nodup_eraseDups theme.keys).filter _

end Theme

end DesignTokens
