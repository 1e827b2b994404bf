import DesignTokens.Registry.Basic

namespace DesignTokens.Registry

/-!
# The handlers of this library

Every handler of this library is found under its tag, and detection asks the
handlers in the order in which they are registered.
-/

/-- The tags of the handlers of this library are distinct. -/
private theorem nodup_builtin_tags :
    (Handler.builtins.map Handler.tag).Nodup := by
  decide

/-- Among handlers with distinct tags, each one is found under its own. -/
theorem find?_tag_of_mem
    {handlers : List Handler}
    {handler : Handler}
    (distinct : (handlers.map Handler.tag).Nodup)
    (isHandler : handler ∈ handlers) :
    handlers.find? (fun candidate => candidate.tag == handler.tag) =
      some handler := by
  induction handlers with
  | nil => cases isHandler
  | cons first rest inductionHypothesis =>
      obtain ⟨isNew, restDistinct⟩ := List.nodup_cons.mp distinct
      rcases List.mem_cons.mp isHandler with rfl | inRest
      · simp
      · have otherTag : first.tag ≠ handler.tag :=
          fun sameTag => isNew (sameTag ▸ List.mem_map_of_mem inRest)
        rw [List.find?_cons_of_neg (by simpa using otherTag)]
        exact inductionHypothesis restDistinct inRest

/-- A handler of this library is found under its tag. -/
theorem get_standard
    {handler : Handler}
    (isBuiltin : handler ∈ Handler.builtins) :
    standard.get (.str handler.tag) = .ok handler := by
  rw [get, find?, standard, find?_tag_of_mem nodup_builtin_tags isBuiltin]

/-- Two handlers of this library with one tag are the same. -/
theorem eq_of_sameTag
    {first second : Handler}
    (isFirst : first ∈ Handler.builtins)
    (isSecond : second ∈ Handler.builtins)
    (sameTag : first.tag = second.tag) :
    first = second := by
  have found := get_standard isFirst
  rw [sameTag, get_standard isSecond] at found
  exact (Except.ok.inj found).symm

/-- A handler that is found belongs to this library and carries the tag. -/
theorem get_standard_eq_ok
    {tag : Wire}
    {handler : Handler}
    (isFound : standard.get tag = .ok handler) :
    tag = .str handler.tag ∧ handler ∈ Handler.builtins := by
  cases tag with
  | str name =>
      cases isFirst : standard.find? name with
      | none =>
          simp only [get, isFirst] at isFound
          cases isFound
      | some found =>
          simp only [get, isFirst] at isFound
          obtain rfl := Except.ok.inj isFound
          have sameTag : found.tag = name := by simpa using List.find?_some isFirst
          exact ⟨congrArg Wire.str sameTag.symm, List.mem_of_find?_eq_some isFirst⟩
  | _ => cases isFound

/-- The handlers of this library are registered in the order of their priorities. -/
theorem ordered_standard :
    standard.ordered = Handler.builtins := by
  have descending :
      Handler.builtins.Pairwise
        (fun left right => decide (right.priority ≤ left.priority) = true) := by
    decide
  exact List.mergeSort_of_pairwise descending

/-- The registry of this library, written without sorting. -/
theorem standard_eq :
    standard = ⟨Handler.builtins, Handler.builtins⟩ :=
  congrArg (Registry.mk Handler.builtins) ordered_standard

end DesignTokens.Registry
