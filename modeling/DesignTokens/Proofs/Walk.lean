import Mathlib.Data.List.Chain
import Mathlib.Logic.Relation

namespace DesignTokens

/-!
# Walks and cycles

A relation tells which hops are possible.  A cycle is a closed walk that passes
no item twice; a first return is a walk that stops as soon as it comes back to
an item it has passed.  When every item has at most one hop, the members of a
cycle are exactly the items that any one of them reaches, and a walk either
enters a cycle or comes to an end.
-/

open Relation

variable {α : Type}

/-- A closed walk that passes no item twice. -/
structure IsCycle (Hop : α → α → Prop) (cycle : List α) : Prop where
  nonempty :
    cycle ≠ []
  distinct :
    cycle.Nodup
  follows :
    cycle.IsChain Hop
  closes :
    ∀ last ∈ cycle.getLast?, ∀ first ∈ cycle.head?, Hop last first

/-- A walk from a start up to and including the first item that it passes again. -/
structure FirstReturn (Hop : α → α → Prop) (start : α) (walk : List α) : Prop where
  begins :
    walk.head? = some start
  follows :
    walk.IsChain Hop
  distinct :
    walk.dropLast.Nodup
  returns :
    ∀ last ∈ walk.getLast?, last ∈ walk.dropLast

/-- Walking from a start comes to an item of a cycle. -/
def EntersCycle (Hop : α → α → Prop) (start : α) : Prop :=
  ∃ cycle entry, IsCycle Hop cycle ∧ entry ∈ cycle ∧ ReflTransGen Hop start entry

/-- Walking from a start comes to an item from which no hop leads on. -/
def EndsAt (Hop : α → α → Prop) (start last : α) : Prop :=
  ReflTransGen Hop start last ∧ ∀ next, ¬ Hop last next

variable {Hop : α → α → Prop}

/-- Along a walk every item reaches every later one. -/
theorem reaches_later
    {walk : List α}
    (follows : walk.IsChain Hop) :
    walk.Pairwise (ReflTransGen Hop) :=
  (follows.imp (fun _ _ hop => ReflTransGen.single hop)).pairwise

/--
Where every item has one hop at most, of two walks from one start one
continues the other.
-/
theorem walks_comparable
    (unique : Relator.RightUnique Hop)
    {first second : List α}
    (firstFollows : first.IsChain Hop)
    (secondFollows : second.IsChain Hop)
    (sameStart : first.head? = second.head?) :
    first <+: second ∨ second <+: first := by
  induction first generalizing second with
  | nil => exact .inl List.nil_prefix
  | cons item rest inductionHypothesis =>
      cases second with
      | nil => exact .inr List.nil_prefix
      | cons other others =>
          obtain rfl : item = other := by simpa using sameStart
          have restStarts : rest = [] ∨ others = [] ∨
              rest.head? = others.head? := by
            cases rest with
            | nil => exact .inl rfl
            | cons next more =>
                cases others with
                | nil => exact .inr (.inl rfl)
                | cons otherNext moreOthers =>
                    have sameNext :=
                      unique (firstFollows.rel_head? rfl)
                        (secondFollows.rel_head? rfl)
                    exact .inr (.inr (congrArg some sameNext))
          rcases restStarts with rfl | rfl | sameNext
          · exact .inl (by simp)
          · exact .inr (by simp)
          · rcases inductionHypothesis firstFollows.tail secondFollows.tail
              sameNext with
              shorter | longer
            · exact .inl (List.cons_prefix_cons.mpr ⟨rfl, shorter⟩)
            · exact .inr (List.cons_prefix_cons.mpr ⟨rfl, longer⟩)

namespace IsCycle

/-- From every member of a cycle a hop leads to a member. -/
theorem exists_hop
    {cycle : List α}
    {item : α}
    (isCycle : IsCycle Hop cycle)
    (member : item ∈ cycle) :
    ∃ next ∈ cycle, Hop item next := by
  obtain ⟨earlier, later, rfl⟩ := List.append_of_mem member
  cases later with
  | cons next rest =>
      exact ⟨next, by simp, (List.isChain_append_cons_cons.mp isCycle.follows).2.1⟩
  | nil =>
      -- The item is the last one, so its hop is the one that closes the cycle.
      cases earlier with
      | nil =>
          exact ⟨item, by simp, isCycle.closes item (by simp) item (by simp)⟩
      | cons first rest =>
          have isLast : item ∈ (first :: rest ++ [item]).getLast? := by
            rw [List.getLast?_concat, Option.mem_some_iff]
          exact ⟨first, by simp, isCycle.closes item isLast first (by simp)⟩

/-- Members of a cycle reach each other. -/
theorem reaches
    {cycle : List α}
    {source target : α}
    (isCycle : IsCycle Hop cycle)
    (sourceMember : source ∈ cycle)
    (targetMember : target ∈ cycle) :
    ReflTransGen Hop source target := by
  have ordered := reaches_later isCycle.follows
  cases cycle with
  | nil => simp at sourceMember
  | cons first rest =>
      have fromFirst : ReflTransGen Hop first target := by
        rcases List.mem_cons.mp targetMember with isFirst | isLater
        · subst isFirst
          exact .refl
        · exact (List.pairwise_cons.mp ordered).1 target isLater
      obtain ⟨earlier, last, shape⟩ :=
        (first :: rest).eq_nil_or_concat'.resolve_left (by simp)
      have closing : Hop last first :=
        isCycle.closes last (by simp [shape]) first (by simp)
      rw [shape] at ordered sourceMember
      have toLast : ReflTransGen Hop source last := by
        rcases List.mem_append.mp sourceMember with isEarlier | isLast
        · exact (List.pairwise_append.mp ordered).2.2 source isEarlier last
            (by simp)
        · rw [List.mem_singleton.mp isLast]
      exact (toLast.tail closing).trans fromFirst

/-- Where every item has one hop at most, a cycle holds what its members reach. -/
theorem mem_of_reaches
    {cycle : List α}
    {source target : α}
    (isCycle : IsCycle Hop cycle)
    (unique : Relator.RightUnique Hop)
    (member : source ∈ cycle)
    (reached : ReflTransGen Hop source target) :
    target ∈ cycle := by
  induction reached with
  | refl => exact member
  | tail _ hop inductionHypothesis =>
      obtain ⟨next, nextMember, nextHop⟩ := isCycle.exists_hop inductionHypothesis
      rwa [unique hop nextHop]

/--
Where every item has one hop at most, cycles with a common member have
the same members.
-/
theorem mem_iff_of_common
    {first second : List α}
    {common item : α}
    (firstCycle : IsCycle Hop first)
    (secondCycle : IsCycle Hop second)
    (unique : Relator.RightUnique Hop)
    (inFirst : common ∈ first)
    (inSecond : common ∈ second) :
    item ∈ first ↔ item ∈ second := by
  constructor
  · intro member
    exact secondCycle.mem_of_reaches unique inSecond
      (firstCycle.reaches inFirst member)
  · intro member
    exact firstCycle.mem_of_reaches unique inFirst
      (secondCycle.reaches inSecond member)

/--
A cycle of one relation is a cycle of every relation that allows the same hops.
-/
theorem of_iff
    {Other : α → α → Prop}
    {cycle : List α}
    (isCycle : IsCycle Hop cycle)
    (sameHops : ∀ source target, Hop source target ↔ Other source target) :
    IsCycle Other cycle where
  nonempty :=
    isCycle.nonempty
  distinct :=
    isCycle.distinct
  follows :=
    isCycle.follows.imp (fun source target => (sameHops source target).mp)
  closes last isLast first isFirst :=
    (sameHops last first).mp (isCycle.closes last isLast first isFirst)

end IsCycle

/-- The part of a walk that leads from an item back to it is a cycle. -/
theorem FirstReturn.entersCycle
    {start : α}
    {walk : List α}
    (returned : FirstReturn Hop start walk) :
    EntersCycle Hop start := by
  obtain ⟨begins, follows, distinct, returns⟩ := returned
  obtain ⟨passed, last, rfl⟩ :=
    walk.eq_nil_or_concat'.resolve_left (by rintro rfl; simp at begins)
  simp only [List.dropLast_concat] at distinct returns
  have passedBefore : last ∈ passed := returns last (by simp)
  have ordered := reaches_later follows
  obtain ⟨before, after, rfl⟩ := List.append_of_mem passedBefore
  have loopFollows : (last :: after ++ [last]).IsChain Hop := by
    rw [List.append_assoc] at follows
    exact follows.right_of_append
  refine ⟨last :: after, last, ?_, by simp, ?_⟩
  · refine ⟨by simp, (List.nodup_append.mp distinct).2.1,
      loopFollows.left_of_append, ?_⟩
    intro final isFinal first isFirst
    obtain rfl : first = last := by simpa using isFirst.symm
    exact (List.isChain_append.mp loopFollows).2.2 final isFinal first (by simp)
  · cases before with
    | nil =>
        obtain rfl : last = start := by simpa using begins
        exact .refl
    | cons first rest =>
        obtain rfl : first = start := by simpa using begins
        exact (List.pairwise_cons.mp ordered).1 last (by simp)

/-- A first return stays one where the items it passes keep their hops. -/
theorem FirstReturn.of_hops
    {Other : α → α → Prop}
    {start : α}
    {walk : List α}
    (returned : FirstReturn Hop start walk)
    (keepsHops :
      ∀ source ∈ walk, ∀ target, Hop source target → Other source target) :
    FirstReturn Other start walk where
  begins :=
    returned.begins
  follows :=
    returned.follows.imp_of_mem_imp
      (fun source target isPassed _ => keepsHops source isPassed target)
  distinct :=
    returned.distinct
  returns :=
    returned.returns

/-- A walk that has come back passes some item twice. -/
theorem FirstReturn.not_nodup
    {start : α}
    {walk : List α}
    (returned : FirstReturn Hop start walk) :
    ¬ walk.Nodup := by
  intro distinct
  obtain ⟨passed, last, rfl⟩ :=
    walk.eq_nil_or_concat'.resolve_left (by rintro rfl; cases returned.begins)
  have passedBefore : last ∈ passed := by
    simpa using returned.returns last (by simp)
  exact (List.nodup_append.mp distinct).2.2 last passedBefore last (by simp) rfl

/--
A walk that comes back cannot be continued to one that comes back
for the first time.
-/
private theorem FirstReturn.eq_of_continued
    {start : α}
    {walk longer : List α}
    (returned : FirstReturn Hop start walk)
    (longerReturned : FirstReturn Hop start longer)
    (continued : walk <+: longer) :
    walk = longer := by
  obtain ⟨more, rfl⟩ := continued
  by_cases isWhole : more = []
  · simp [isWhole]
  · have distinct := longerReturned.distinct
    rw [List.dropLast_append_of_ne_nil isWhole] at distinct
    exact (returned.not_nodup (List.nodup_append.mp distinct).1).elim

/-- Where every item has one hop at most, there is one first return from a start. -/
theorem FirstReturn.unique
    {start : α}
    {first second : List α}
    (unique : Relator.RightUnique Hop)
    (firstReturned : FirstReturn Hop start first)
    (secondReturned : FirstReturn Hop start second) :
    first = second := by
  have sameStart : first.head? = second.head? :=
    firstReturned.begins.trans secondReturned.begins.symm
  rcases walks_comparable unique firstReturned.follows secondReturned.follows
    sameStart with
    continued | continued
  · exact firstReturned.eq_of_continued secondReturned continued
  · exact (secondReturned.eq_of_continued firstReturned continued).symm

/-- Where every item has one hop at most, all walks from a start end at one item. -/
theorem EndsAt.unique
    {start first second : α}
    (unique : Relator.RightUnique Hop)
    (firstEnds : EndsAt Hop start first)
    (secondEnds : EndsAt Hop start second) :
    first = second := by
  rcases ReflTransGen.total_of_right_unique unique firstEnds.1 secondEnds.1 with
    onward | onward
  · exact ((reflTransGen_iff_eq firstEnds.2).mp onward).symm
  · exact (reflTransGen_iff_eq secondEnds.2).mp onward

/--
Where every item has one hop at most, a walk ends where it ends
after its first hop.
-/
theorem endsAt_iff_of_hop
    {start next last : α}
    (unique : Relator.RightUnique Hop)
    (hop : Hop start next) :
    EndsAt Hop start last ↔ EndsAt Hop next last := by
  constructor
  · rintro ⟨reached, noHop⟩
    rcases ReflTransGen.cases_head reached with same | ⟨other, otherHop, onward⟩
    · subst same
      exact (noHop next hop).elim
    · rw [unique hop otherHop]
      exact ⟨onward, noHop⟩
  · rintro ⟨reached, noHop⟩
    exact ⟨reached.head hop, noHop⟩

/--
Where every item has one hop at most, a walk that ends does not come
back to its start.
-/
theorem EndsAt.not_returns
    {start last : α}
    (unique : Relator.RightUnique Hop)
    (ends : EndsAt Hop start last) :
    ¬ TransGen Hop start start := by
  obtain ⟨reached, noHop⟩ := ends
  induction reached using ReflTransGen.head_induction_on with
  | refl =>
      intro returns
      obtain ⟨next, hop, _⟩ := TransGen.head'_iff.mp returns
      exact noHop next hop
  | head hop _ inductionHypothesis =>
      intro returns
      obtain ⟨next, otherHop, onward⟩ := TransGen.head'_iff.mp returns
      obtain rfl := unique hop otherHop
      exact inductionHypothesis (TransGen.tail' onward hop)

/-- Where every item has one hop at most, a walk that enters a cycle never ends. -/
theorem EntersCycle.not_endsAt
    {start last : α}
    (enters : EntersCycle Hop start)
    (unique : Relator.RightUnique Hop) :
    ¬ EndsAt Hop start last := by
  rintro ⟨reachesLast, noHop⟩
  obtain ⟨cycle, entry, isCycle, member, reachesEntry⟩ := enters
  -- Two walks from one start are parts of one walk; the end lies behind the entry.
  have entryReachesLast : ReflTransGen Hop entry last := by
    rcases ReflTransGen.total_of_right_unique unique reachesEntry reachesLast with
      forth | back
    · exact forth
    · rw [(reflTransGen_iff_eq noHop).mp back]
  have lastMember := isCycle.mem_of_reaches unique member entryReachesLast
  obtain ⟨next, _, hop⟩ := isCycle.exists_hop lastMember
  exact noHop next hop

end DesignTokens
