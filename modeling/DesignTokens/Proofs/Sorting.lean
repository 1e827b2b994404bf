import Mathlib.Data.String.Basic

namespace DesignTokens

/-!
# Stable sorting

Sorting keeps the order of items that count as no later than each other, and it
depends on no other order among them.  Items that are sorted by a name are
therefore told by what stands under each name, and in which order it stands
there.
-/

/--
Sorting keeps those items in their order that count as no later than each other.
-/
theorem filter_mergeSort
    {α : Type}
    {isNoLater : α → α → Bool}
    (transitive : ∀ first second third, isNoLater first second = true →
      isNoLater second third = true → isNoLater first third = true)
    (total :
      ∀ first second, (isNoLater first second || isNoLater second first) = true)
    {keep : α → Bool}
    (tied : ∀ first second, keep first = true → keep second = true →
      isNoLater first second = true)
    (items : List α) :
    (items.mergeSort isNoLater).filter keep = items.filter keep := by
  have sorted :
      (items.filter keep).Pairwise
        (fun first second => isNoLater first second = true) := by
    apply List.pairwise_of_forall_mem_list
    intro first isFirst second isSecond
    exact tied first second (List.mem_filter.mp isFirst).2
      (List.mem_filter.mp isSecond).2
  -- What is sorted already stays in its order.
  have keptInOrder : (items.filter keep).Sublist (items.mergeSort isNoLater) :=
    List.sublist_mergeSort transitive total sorted List.filter_sublist
  have inside :
      (items.filter keep).Sublist ((items.mergeSort isNoLater).filter keep) := by
    have filtered := keptInOrder.filter keep
    simpa only [List.filter_filter, Bool.and_self] using filtered
  have asMany : ((items.mergeSort isNoLater).filter keep).length =
      (items.filter keep).length :=
    ((List.mergeSort_perm items isNoLater).filter _).length_eq
  exact (inside.eq_of_length asMany.symm).symm

/-- The items that count as no later and no earlier than the given one. -/
def tied {α : Type} (isNoLater : α → α → Bool) (item : α) (items : List α) :
    List α :=
  items.filter (fun other => isNoLater item other && isNoLater other item)

section Ties

variable {α : Type} {isNoLater : α → α → Bool}

theorem tied_cons
    (item first : α)
    (rest : List α) :
    tied isNoLater item (first :: rest) =
      if isNoLater item first && isNoLater first item then
        first :: tied isNoLater item rest
      else tied isNoLater item rest :=
  List.filter_cons

/-- Items that are sorted are told by the items tied with each of them. -/
theorem eq_of_pairwise_of_tied_eq
    (total :
      ∀ first second, (isNoLater first second || isNoLater second first) = true)
    {left right : List α}
    (leftSorted : left.Pairwise (fun first second => isNoLater first second = true))
    (rightSorted :
      right.Pairwise (fun first second => isNoLater first second = true))
    (same : ∀ item, tied isNoLater item left = tied isNoLater item right) :
    left = right := by
  have tiedWithItself (item : α) :
      (isNoLater item item && isNoLater item item) = true := by
    simpa using total item item
  induction left generalizing right with
  | nil =>
      cases right with
      | nil => rfl
      | cons item rest =>
          have ofItem := same item
          rw [tied_cons, if_pos (tiedWithItself item)] at ofItem
          cases ofItem
  | cons item rest inductionHypothesis =>
      have ofItem := same item
      rw [tied_cons, if_pos (tiedWithItself item)] at ofItem
      obtain ⟨front, behind, rfl, notTied, _, _⟩ :=
        List.filter_eq_cons_iff.mp ofItem.symm
      cases front with
      | nil =>
          refine congrArg (item :: ·)
            (inductionHypothesis leftSorted.of_cons rightSorted.of_cons
              fun other => ?_)
          have ofOther := same other
          rw [List.nil_append, tied_cons, tied_cons] at ofOther
          split at ofOther
          · exact List.tail_eq_of_cons_eq ofOther
          · exact ofOther
      | cons other front =>
          -- An item in front would be tied with this one, standing behind it on the
          -- left.
          have onLeft : other ∈ item :: rest := by
            have isTied : other ∈
                tied isNoLater other (other :: front ++ item :: behind) :=
              List.mem_filter.mpr ⟨by simp, tiedWithItself other⟩
            rw [← same] at isTied
            exact List.mem_of_mem_filter isTied
          have otherFirst : isNoLater other item = true :=
            List.rel_of_pairwise_cons rightSorted (by simp)
          have itemFirst : isNoLater item other = true := by
            rcases List.mem_cons.mp onLeft with rfl | isLater
            · exact otherFirst
            · exact List.rel_of_pairwise_cons leftSorted isLater
          exact absurd (Bool.and_eq_true_iff.mpr ⟨itemFirst, otherFirst⟩)
            (notTied other List.mem_cons_self)

/-- Sorting depends only on the order among the items tied with each other. -/
theorem mergeSort_eq_of_tied_eq
    (transitive : ∀ first second third, isNoLater first second = true →
      isNoLater second third = true → isNoLater first third = true)
    (total :
      ∀ first second, (isNoLater first second || isNoLater second first) = true)
    {left right : List α}
    (same : ∀ item, tied isNoLater item left = tied isNoLater item right) :
    left.mergeSort isNoLater = right.mergeSort isNoLater := by
  have keepsTied (item : α) (items : List α) :
      tied isNoLater item (items.mergeSort isNoLater) =
        tied isNoLater item items := by
    apply filter_mergeSort transitive total
    intro first second isFirst isSecond
    exact transitive first item second (Bool.and_eq_true_iff.mp isFirst).2
      (Bool.and_eq_true_iff.mp isSecond).1
  apply eq_of_pairwise_of_tied_eq total
  · exact List.pairwise_mergeSort transitive total left
  · exact List.pairwise_mergeSort transitive total right
  · intro item
    rw [keepsTied, keepsTied, same]

end Ties

namespace Wire

variable {α β : Type}

/-- The members of a name, in their order. -/
def named (name : String) (members : List (String × α)) : List (String × α) :=
  members.filter (fun member => member.1 == name)

/-- Whether the name of a member comes no later than that of another. -/
def byName (left right : String × α) : Bool :=
  decide (left.1 ≤ right.1)

theorem byName_trans
    (first second third : String × α)
    (before : byName first second = true)
    (behind : byName second third = true) :
    byName first third = true := by
  simp only [byName, decide_eq_true_eq] at *
  exact le_trans before behind

theorem byName_total
    (first second : String × α) :
    (byName first second || byName second first) = true := by
  simp only [byName, Bool.or_eq_true, decide_eq_true_eq]
  exact le_total first.1 second.1

theorem named_cons
    (name : String)
    (member : String × α)
    (rest : List (String × α)) :
    named name (member :: rest) =
      if member.1 = name then member :: named name rest else named name rest := by
  by_cases sameName : member.1 = name
  · simp [named, sameName]
  · simp [named, sameName]

theorem named_append
    (name : String)
    (front behind : List (String × α)) :
    named name (front ++ behind) = named name front ++ named name behind :=
  List.filter_append ..

/-- Sorting by name keeps the members of each name in their order. -/
@[simp] theorem named_mergeSort
    (name : String)
    (members : List (String × α)) :
    named name (members.mergeSort byName) = named name members := by
  apply filter_mergeSort byName_trans byName_total
  intro first second isFirst isSecond
  rw [byName, eq_of_beq isFirst, eq_of_beq isSecond]
  exact decide_eq_true le_rfl

/-- Sorting by name does not look at what stands under the names. -/
theorem map_mergeSort_byName
    (change : α → β)
    (members : List (String × α)) :
    (members.mergeSort byName).map (fun member => (member.1, change member.2)) =
      (members.map (fun member => (member.1, change member.2))).mergeSort byName :=
  List.map_mergeSort (fun _ _ _ _ => rfl)

/--
The first of the members, seen from its name, is the first with that
name elsewhere too.
-/
theorem exists_front_of_named_eq
    {member : String × α}
    {rest others : List (String × α)}
    (same : ∀ name, named name (member :: rest) = named name others) :
    ∃ front behind,
      others = front ++ member :: behind ∧
        (∀ other ∈ front, other.1 ≠ member.1) ∧
          ∀ name, named name rest = named name (front ++ behind) := by
  have ofMember := same member.1
  rw [named_cons, if_pos rfl] at ofMember
  obtain ⟨front, behind, rfl, otherNames, _, restOfName⟩ :=
    List.filter_eq_cons_iff.mp ofMember.symm
  have frontApart : ∀ other ∈ front, other.1 ≠ member.1 := by
    intro other isOther sameName
    exact otherNames other isOther (beq_iff_eq.mpr sameName)
  refine ⟨front, behind, rfl, frontApart, fun name => ?_⟩
  have ofName := same name
  rw [named_append, named_cons, named_cons] at ofName
  rw [named_append]
  by_cases sameName : member.1 = name
  · have noneInFront : named name front = [] := by
      rw [← sameName]
      exact List.filter_eq_nil_iff.mpr otherNames
    rw [if_pos sameName, if_pos sameName, noneInFront] at ofName
    rw [noneInFront]
    exact List.tail_eq_of_cons_eq ofName
  · rw [if_neg sameName, if_neg sameName] at ofName
    exact ofName

/--
The members that count as no later and no earlier than a member are
those of its name.
-/
theorem tied_byName
    (member : String × α)
    (members : List (String × α)) :
    tied byName member members = named member.1 members := by
  apply List.filter_congr
  intro other _
  rw [Bool.eq_iff_iff]
  simp only [byName, Bool.and_eq_true, decide_eq_true_eq, beq_iff_eq]
  constructor
  · rintro ⟨memberFirst, otherFirst⟩
    exact le_antisymm otherFirst memberFirst
  · intro sameName
    exact ⟨ge_of_eq sameName, le_of_eq sameName⟩

/-- Members are sorted into one list exactly when they agree name by name. -/
theorem mergeSort_byName_eq_iff
    {left right : List (String × α)} :
    left.mergeSort byName = right.mergeSort byName ↔
      ∀ name, named name left = named name right := by
  constructor
  · intro same name
    rw [← named_mergeSort, same, named_mergeSort]
  · intro same
    apply mergeSort_eq_of_tied_eq byName_trans byName_total
    intro member
    rw [tied_byName, tied_byName, same]

end Wire

end DesignTokens
