import DesignTokens.Proofs.Registry.Fallbacks
import DesignTokens.Proofs.Sorting

namespace DesignTokens.Registry

/-!
# Priorities

Handlers of higher priority are asked first, and those of one priority in the
order in which they are registered.  A claim therefore prevails when no handler
of higher priority claims the context, and none of the same priority that is
registered earlier; whatever else changes in the order of registration does not
show.
-/

/-! The order in which handlers are asked. -/

/--
Whether a handler is asked no later than another one, going by their priorities.
-/
def isNoLater (left right : Handler) : Bool :=
  decide (right.priority ≤ left.priority)

theorem isNoLater_trans
    (first second third : Handler)
    (firstStep : isNoLater first second = true)
    (secondStep : isNoLater second third = true) :
    isNoLater first third = true := by
  simp only [isNoLater, decide_eq_true_eq] at *
  exact Int.le_trans secondStep firstStep

theorem isNoLater_total
    (first second : Handler) :
    (isNoLater first second || isNoLater second first) = true := by
  simp only [isNoLater, Bool.or_eq_true, decide_eq_true_eq]
  exact Int.le_total second.priority first.priority

/-- The handlers of a priority, in their order. -/
def ofPriority (priority : Int) (handlers : List Handler) : List Handler :=
  handlers.filter (fun handler => handler.priority == priority)

theorem tied_isNoLater
    (handler : Handler)
    (handlers : List Handler) :
    tied isNoLater handler handlers = ofPriority handler.priority handlers := by
  apply List.filter_congr
  intro other _
  rw [Bool.eq_iff_iff]
  simp only [isNoLater, Bool.and_eq_true, decide_eq_true_eq, beq_iff_eq]
  omega

/-- Handlers of one priority are asked in the order in which they are registered. -/
theorem ofPriority_byPriority
    (priority : Int)
    (handlers : List Handler) :
    ofPriority priority (byPriority handlers) = ofPriority priority handlers := by
  apply filter_mergeSort isNoLater_trans isNoLater_total
  intro first second isFirst isSecond
  rw [isNoLater, eq_of_beq isFirst, eq_of_beq isSecond]
  exact decide_eq_true (Int.le_refl priority)

/-- Handlers are asked from the highest priority down. -/
theorem pairwise_byPriority
    (handlers : List Handler) :
    (byPriority handlers).Pairwise
      (fun left right => right.priority ≤ left.priority) :=
  (List.pairwise_mergeSort isNoLater_trans isNoLater_total handlers).imp
    of_decide_eq_true

/--
Two handlers of one priority are asked in the order in which
they are registered.
-/
theorem pair_sublist_byPriority_iff
    {handlers : List Handler}
    {first second : Handler}
    (samePriority : first.priority = second.priority) :
    [first, second].Sublist (byPriority handlers) ↔
      [first, second].Sublist handlers := by
  constructor
  · intro inOrder
    have ofSamePriority :
        ofPriority second.priority [first, second] = [first, second] := by
      simp [ofPriority, samePriority]
    have kept : (ofPriority second.priority [first, second]).Sublist
        (ofPriority second.priority (byPriority handlers)) :=
      inOrder.filter _
    rw [ofSamePriority, ofPriority_byPriority] at kept
    exact kept.trans List.filter_sublist
  · apply List.pair_sublist_mergeSort isNoLater_trans isNoLater_total
    exact decide_eq_true (le_of_eq samePriority.symm)

/--
In a list without duplicates, what a sublist has in front of an item
stands in front of it.
-/
theorem pair_sublist_iff_mem_front
    {α : Type}
    {front behind : List α}
    {chosen other : α}
    (distinct : (front ++ chosen :: behind).Nodup) :
    [other, chosen].Sublist (front ++ chosen :: behind) ↔ other ∈ front := by
  constructor
  · intro isPair
    obtain ⟨inFront, rest, shape, isFront, isRest⟩ :=
      List.sublist_append_iff.mp isPair
    cases inFront with
    | nil =>
        -- Both would stand from the chosen one on, so that one would stand there
        -- twice.
        obtain rfl : [other, chosen] = rest := shape
        have isBehind : chosen ∈ behind := List.singleton_sublist.mp isRest.tail
        exact absurd isBehind
          (List.nodup_cons.mp (List.nodup_append.mp distinct).2.1).1
    | cons first inFront =>
        obtain ⟨rfl, _⟩ := List.cons.inj shape
        exact isFront.subset List.mem_cons_self
  · intro isFront
    exact (List.singleton_sublist.mpr isFront).append
      (List.singleton_sublist.mpr List.mem_cons_self)

/--
A registered handler is asked before another one: its priority is higher, or it
is the same and the handler is registered earlier.
-/
def AskedBefore (handlers : List Handler) (first second : Handler) : Prop :=
  first ∈ handlers ∧
    (second.priority < first.priority ∨
      (first.priority = second.priority ∧ [first, second].Sublist handlers))

/-- The handlers asked before one stand in front of it in the order of detection. -/
theorem askedBefore_iff_mem
    {handlers before behind : List Handler}
    {chosen other : Handler}
    (distinct : handlers.Nodup)
    (isOrdered : byPriority handlers = before ++ chosen :: behind) :
    AskedBefore handlers other chosen ↔ other ∈ before := by
  have descending := pairwise_byPriority handlers
  rw [isOrdered, List.pairwise_append] at descending
  obtain ⟨_, chosenDescending, acrossDescending⟩ := descending
  have orderedDistinct : (before ++ chosen :: behind).Nodup :=
    isOrdered ▸ (List.mergeSort_perm handlers _).nodup_iff.mpr distinct
  constructor
  · rintro ⟨isHandler, isHigher | ⟨samePriority, isEarlier⟩⟩
    · have isAsked : other ∈ before ++ chosen :: behind :=
        isOrdered ▸ mem_byPriority_iff.mpr isHandler
      rcases List.mem_append.mp isAsked with isBefore | isLater
      · exact isBefore
      · rcases List.mem_cons.mp isLater with rfl | isBehind
        · exact absurd isHigher (Int.lt_irrefl _)
        · have notHigher := List.rel_of_pairwise_cons chosenDescending isBehind
          exact absurd isHigher (Int.not_lt.mpr notHigher)
    · apply (pair_sublist_iff_mem_front orderedDistinct).mp
      rw [← isOrdered]
      exact (pair_sublist_byPriority_iff samePriority).mpr isEarlier
  · intro isBefore
    have isAsked : other ∈ byPriority handlers := by
      rw [isOrdered]
      exact List.mem_append_left _ isBefore
    refine ⟨mem_byPriority_iff.mp isAsked, ?_⟩
    have notLower : chosen.priority ≤ other.priority :=
      acrossDescending other isBefore chosen List.mem_cons_self
    rcases Int.lt_or_eq_of_le notLower with isHigher | samePriority
    · exact .inl isHigher
    · refine .inr ⟨samePriority.symm,
        (pair_sublist_byPriority_iff samePriority.symm).mp ?_⟩
      rw [isOrdered]
      exact (pair_sublist_iff_mem_front orderedDistinct).mpr isBefore

/-! Claims that prevail. -/

section Claims

variable {Context : Type} {claims : Handler → Context → Except Fault Bool}
  {context : Context}

/-- A handler claims a context, and no handler that is asked before it does. -/
structure Prevails
    (claims : Handler → Context → Except Fault Bool)
    (context : Context)
    (handlers : List Handler)
    (chosen : Handler) : Prop where
  registered : chosen ∈ handlers
  claimed : claims chosen context = .ok true
  unopposed : ∀ other, AskedBefore handlers other chosen →
    claims other context ≠ .ok true

/-- Among the handlers that claim a context there is one whose claim prevails. -/
theorem exists_prevails
    {handlers : List Handler}
    (distinct : handlers.Nodup)
    (isClaimed : ∃ handler ∈ handlers, claims handler context = .ok true) :
    ∃ chosen, Prevails claims context handlers chosen := by
  classical
  obtain ⟨handler, isHandler, claimed⟩ := isClaimed
  have isFound : ((byPriority handlers).find?
      (fun asked => decide (claims asked context = .ok true))).isSome :=
    List.find?_isSome.mpr
      ⟨handler, mem_byPriority_iff.mpr isHandler, decide_eq_true claimed⟩
  obtain ⟨chosen, isFirst⟩ := Option.isSome_iff_exists.mp isFound
  obtain ⟨chosenClaims, before, behind, isOrdered, noneBefore⟩ :=
    List.find?_eq_some_iff_append.mp isFirst
  refine ⟨chosen, ?_, of_decide_eq_true chosenClaims, fun other isAskedBefore => ?_⟩
  · apply mem_byPriority_iff.mp
    rw [isOrdered]
    exact List.mem_append_right _ List.mem_cons_self
  · have isBefore := (askedBefore_iff_mem distinct isOrdered).mp isAskedBefore
    simpa using noneBefore other isBefore

/--
The first claim is the one that prevails, when all handlers asked
before it can tell.
-/
theorem Prevails.firstClaim_eq_some_iff
    {handlers : List Handler}
    {chosen : Handler}
    {tag : String}
    (distinct : handlers.Nodup)
    (prevails : Prevails claims context handlers chosen) :
    firstClaim claims context (byPriority handlers) = .ok (some tag) ↔
      tag = chosen.tag ∧
        ∀ other, AskedBefore handlers other chosen →
          Succeeds (claims other context) := by
  obtain ⟨before, behind, isOrdered⟩ :=
    List.append_of_mem (mem_byPriority_iff.mpr prevails.registered)
  have isBefore {other : Handler} : AskedBefore handlers other chosen ↔
      other ∈ before :=
    askedBefore_iff_mem distinct isOrdered
  rw [Registry.firstClaim_eq_some_iff, isOrdered, meetsFirst_append_iff,
    meetsFirst_cons_iff]
  constructor
  · rintro (isEarlier | ⟨allDecline, ⟨_, sameTag⟩ | ⟨declined, _⟩⟩)
    · obtain ⟨other, isThere, claimed, _⟩ := isEarlier.exists_met
      exact absurd claimed (prevails.unopposed other (isBefore.mpr isThere))
    · exact ⟨sameTag.symm,
        fun other isAsked => ⟨false, allDecline other (isBefore.mp isAsked)⟩⟩
    · cases prevails.claimed.symm.trans declined
  · rintro ⟨rfl, canTell⟩
    refine .inr ⟨fun other isThere => ?_, .inl ⟨prevails.claimed, rfl⟩⟩
    obtain ⟨claimed, isAsked⟩ := canTell other (isBefore.mpr isThere)
    cases claimed with
    | true => exact absurd isAsked (prevails.unopposed other (isBefore.mpr isThere))
    | false => exact isAsked

/--
Detection gives the tag of the claim that prevails, unless a handler that is
asked before cannot tell whether it claims the context.
-/
def ChoosesByPriority
    (claims : Handler → Context → Except Fault Bool)
    (handlers : List Handler)
    (detect : Context → Except Fault String) : Prop :=
  ∀ context, (∃ handler ∈ handlers, claims handler context = .ok true) →
    ∃ chosen, Prevails claims context handlers chosen ∧
      ∀ tag, detect context = .ok tag ↔
        tag = chosen.tag ∧
          ∀ other, AskedBefore handlers other chosen →
            Succeeds (claims other context)

/--
What asks for the first claim, and falls back only where there is none,
chooses by priority.
-/
theorem choosesByPriority_of_firstClaim
    {handlers : List Handler}
    {detect fallback : Context → Except Fault String}
    (distinct : handlers.Nodup)
    (asks : ∀ context, detect context = do
      match ← firstClaim claims context (byPriority handlers) with
      | some tag => return tag
      | none => fallback context) :
    ChoosesByPriority claims handlers detect := by
  intro context isClaimed
  obtain ⟨chosen, prevails⟩ := exists_prevails distinct isClaimed
  refine ⟨chosen, prevails, fun tag => ?_⟩
  rw [← prevails.firstClaim_eq_some_iff distinct, asks, bind_eq_ok_iff]
  constructor
  · rintro ⟨tag?, isFirst, isTag⟩
    cases tag? with
    | some first =>
        rw [← pure_eq_ok_iff.mp isTag]
        exact isFirst
    | none =>
        have declined := declines_of_firstClaim_eq_none isFirst chosen
          (mem_byPriority_iff.mpr prevails.registered)
        cases prevails.claimed.symm.trans declined
  · intro isFirst
    exact ⟨some tag, isFirst, rfl⟩

end Claims

/-! Building registries. -/

/-- Handlers make up no registry exactly when two of them share a tag. -/
theorem exists_create_eq_error_iff
    {handlers : List Handler} :
    (∃ tag, create handlers = .error (.duplicateType tag)) ↔
      ¬ (handlers.map Handler.tag).Nodup := by
  constructor
  · rintro ⟨tag, isRefused⟩ distinct
    cases (create_of_distinct distinct).symm.trans isRefused
  · intro shared
    cases isDuplicate : duplicate? [] handlers with
    | none => exact absurd (duplicate?_eq_none_iff.mp isDuplicate).2 shared
    | some tag => exact ⟨tag, by rw [create, isDuplicate]⟩

/-! Other orders of registration. -/

/--
The same handlers in an order that keeps that of the handlers of each priority.
-/
structure Rearranges (handlers rearranged : List Handler) : Prop where
  perm : rearranged.Perm handlers
  sameOrder :
    ∀ priority, ofPriority priority rearranged = ofPriority priority handlers

/--
Two registries list the same tags and detect the same types, with
the same faults.
-/
structure DetectsAlike (first second : Registry) : Prop where
  tags : second.tags = first.tags
  native : second.detectNative = first.detectNative
  compact : second.detectCompact = first.detectCompact

section Rearranging

variable {handlers rearranged : List Handler}

theorem Rearranges.byPriority_eq
    (rearranges : Rearranges handlers rearranged) :
    byPriority rearranged = byPriority handlers := by
  apply mergeSort_eq_of_tied_eq isNoLater_trans isNoLater_total
  intro handler
  rw [tied_isNoLater, tied_isNoLater, rearranges.sameOrder]

/-- Detection looks at the order of the handlers, and at which tags have one. -/
theorem detectsAlike_of_perm
    {ordered : List Handler}
    (perm : rearranged.Perm handlers) :
    DetectsAlike ⟨handlers, ordered⟩ ⟨rearranged, ordered⟩ := by
  have sameTags : has ⟨rearranged, ordered⟩ = has ⟨handlers, ordered⟩ := by
    funext tag
    rw [Bool.eq_iff_iff]
    simp only [has, find?, List.find?_isSome, perm.mem_iff]
  have sameNative : nativeFallback ⟨rearranged, ordered⟩ =
      nativeFallback ⟨handlers, ordered⟩ := by
    funext resolvedType
    cases resolvedType <;> simp only [nativeFallback, sameTags]
  have sameCompact : compactFallback ⟨rearranged, ordered⟩ =
      compactFallback ⟨handlers, ordered⟩ := by
    simp only [compactFallback, sameTags]
  refine ⟨rfl, ?_, ?_⟩
  · funext context
    simp only [detectNative, sameNative]
  · funext context
    simp only [detectCompact, sameCompact]

end Rearranging

/--
Handlers make up a registry unless two of them share a tag.  Of the handlers
that claim a context, detection chooses one that no other one precedes by its
priority, nor by its place among those of the same priority; it fails only when
a handler that is asked before cannot tell whether it claims the context.  Where
the handlers of each priority keep their order, no other order of registration
makes a difference.
-/
theorem create_asks_by_priority
    (handlers : List Handler) :
    ((∃ tag, create handlers = .error (.duplicateType tag)) ↔
      ¬ (handlers.map Handler.tag).Nodup) ∧
    ((handlers.map Handler.tag).Nodup →
      ∃ registry, create handlers = .ok registry ∧
        ChoosesByPriority Handler.detectNative handlers registry.detectNative ∧
        ChoosesByPriority Handler.detectCompact handlers registry.detectCompact ∧
        ∀ rearranged, Rearranges handlers rearranged →
          ∃ other, create rearranged = .ok other ∧
            registry.DetectsAlike other) := by
  refine ⟨?_, fun distinct => ?_⟩
  · exact exists_create_eq_error_iff
  · have handlersDistinct : handlers.Nodup :=
      List.Pairwise.of_map Handler.tag
        (fun _ _ differs same => differs (congrArg _ same)) distinct
    refine ⟨_, create_of_distinct distinct, ?_, ?_, fun rearranged rearranges => ?_⟩
    · exact choosesByPriority_of_firstClaim handlersDistinct (fun _ => rfl)
    · exact choosesByPriority_of_firstClaim handlersDistinct (fun _ => rfl)
    · have stillDistinct : (rearranged.map Handler.tag).Nodup :=
        (rearranges.perm.map Handler.tag).nodup_iff.mpr distinct
      refine ⟨_, create_of_distinct stillDistinct, ?_⟩
      rw [rearranges.byPriority_eq]
      exact detectsAlike_of_perm rearranges.perm

/-- Texts, numbers and truth values, registered from the lowest priority up. -/
def ascending : List Handler :=
  [Handler.string, Handler.number, Handler.boolean]

/--
A number is claimed as a text and as a number, and numbers come
first in both orders.
-/
theorem create_ascending :
    (ascending.map Handler.tag).Nodup ∧
      Rearranges ascending ascending.reverse ∧
      (∃ handler ∈ ascending, handler.detectCompact ⟨"gap", "12"⟩ = .ok true) ∧
      ∃ registry other,
        create ascending = .ok registry ∧ create ascending.reverse = .ok other ∧
          registry.detectCompact ⟨"gap", "12"⟩ = .ok "number" ∧
          other.detectCompact ⟨"gap", "12"⟩ = .ok "number" := by
  have distinct : (ascending.map Handler.tag).Nodup := by decide
  have rearranges : Rearranges ascending ascending.reverse := by
    refine ⟨List.reverse_perm _, fun priority => ?_⟩
    by_cases isLowest : priority = 10
    · subst isLowest
      rfl
    · by_cases isMiddle : priority = 20
      · subst isMiddle
        rfl
      · simp [ofPriority, ascending, Handler.string, Handler.number,
          Handler.boolean, List.filter_cons, Ne.symm isLowest, Ne.symm isMiddle]
  have textClaims : Handler.string.detectCompact ⟨"gap", "12"⟩ = .ok true := rfl
  have numberClaims : Handler.number.detectCompact ⟨"gap", "12"⟩ = .ok true :=
    by decide
  have truthDeclines : Handler.boolean.detectCompact ⟨"gap", "12"⟩ = .ok false :=
    by decide
  have isClaimed :
      ∃ handler ∈ ascending, handler.detectCompact ⟨"gap", "12"⟩ = .ok true :=
    ⟨Handler.string, by simp [ascending], textClaims⟩
  obtain ⟨registry, isCreated, _, compact, alike⟩ :=
    (create_asks_by_priority ascending).2 distinct
  obtain ⟨other, isOther, detectsAlike⟩ := alike _ rearranges
  obtain ⟨chosen, prevails, detected⟩ := compact _ isClaimed
  have isNumber : chosen = Handler.number := by
    have isOneOf := prevails.registered
    simp only [ascending, List.mem_cons, List.not_mem_nil, or_false] at isOneOf
    rcases isOneOf with rfl | rfl | rfl
    · have numberFirst : AskedBefore ascending Handler.number Handler.string :=
        ⟨by simp [ascending], .inl (by decide)⟩
      exact absurd numberClaims (prevails.unopposed _ numberFirst)
    · rfl
    · cases truthDeclines.symm.trans prevails.claimed
  have canTell : ∀ handler, AskedBefore ascending handler chosen →
      Succeeds (handler.detectCompact ⟨"gap", "12"⟩) := by
    rintro handler ⟨isOneOf, _⟩
    simp only [ascending, List.mem_cons, List.not_mem_nil, or_false] at isOneOf
    rcases isOneOf with rfl | rfl | rfl
    · exact ⟨_, textClaims⟩
    · exact ⟨_, numberClaims⟩
    · exact ⟨_, truthDeclines⟩
  have isDetected : registry.detectCompact ⟨"gap", "12"⟩ = .ok "number" :=
    (detected "number").mpr ⟨by rw [isNumber]; rfl, canTell⟩
  exact ⟨distinct, rearranges, isClaimed, registry, other, isCreated, isOther,
    isDetected, (congrFun detectsAlike.compact _).trans isDetected⟩

/--
A raised digit under the path of a font weight is claimed as a text, but no
type is detected.
-/
theorem claimed_raised_not_detected :
    create Handler.builtins = .ok standard ∧
      Handler.string ∈ Handler.builtins ∧
      Handler.string.detectCompact ⟨"weight", "²"⟩ = .ok true ∧
      ∀ tag, standard.detectCompact ⟨"weight", "²"⟩ ≠ .ok tag := by
  refine ⟨create_of_distinct (by decide), by simp [Handler.builtins], rfl,
    fun tag detected => ?_⟩
  have isStripped : (⟨"weight", "²"⟩ : CompactContext).stripped = ['²'] := by decide
  have noNumeral : Text.NoNumeral ['²'] := ⟨by decide, .inl (by decide)⟩
  refine succeeds_detectCompact_iff.mp ⟨tag, detected⟩ (.inr ?_)
  exact ⟨by decide, by decide, by decide, isStripped ▸ noNumeral⟩

end DesignTokens.Registry
