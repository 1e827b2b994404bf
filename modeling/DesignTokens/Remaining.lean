namespace DesignTokens

/-!
# Remaining items

How many items of a list have not been passed yet.  Passing a new item leaves
fewer, which is why a walk that never passes an item twice comes to an end.
-/

variable {α : Type} [BEq α]

/-- How many of all items have not been passed. -/
def remaining (all passed : List α) : Nat :=
  (all.filter (fun item => !passed.contains item)).length

/-- Passing a new item leaves fewer. -/
theorem remaining_cons_lt [LawfulBEq α] {all passed : List α} {item : α}
    (isItem : item ∈ all) (isNew : item ∉ passed) :
    remaining all (item :: passed) < remaining all passed := by
  have smaller :
      ((all.filter (fun other => !passed.contains other)).filter
        (fun other => other != item)).length <
          (all.filter (fun other => !passed.contains other)).length := by
    apply List.length_filter_lt_length_iff_exists.mpr
    exact ⟨item, by simp [isItem, isNew], by simp⟩
  have sameItems : all.filter (fun other => !(item :: passed).contains other) =
      (all.filter (fun other => !passed.contains other)).filter
        (fun other => other != item) := by
    rw [List.filter_filter]
    congr 1
    funext other
    by_cases same : other = item <;> simp [same]
  unfold remaining
  rw [sameItems]
  exact smaller

/-- The order in which items were passed does not matter. -/
theorem remaining_append_singleton [LawfulBEq α] (all passed : List α) (item : α) :
    remaining all (passed ++ [item]) = remaining all (item :: passed) := by
  unfold remaining
  congr 2
  funext other
  by_cases same : other = item <;> simp [same]

/-- Having passed more leaves no more. -/
theorem remaining_le_of_subset [LawfulBEq α] {all passed more : List α}
    (areMore : passed ⊆ more) :
    remaining all more ≤ remaining all passed := by
  unfold remaining
  rw [← List.countP_eq_length_filter, ← List.countP_eq_length_filter]
  refine List.countP_mono_left fun item _ notMore => ?_
  simp only [Bool.not_eq_true', List.contains_eq_mem,
    decide_eq_false_iff_not] at notMore ⊢
  exact fun isPassed => notMore (areMore isPassed)

end DesignTokens
