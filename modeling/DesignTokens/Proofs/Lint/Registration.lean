import DesignTokens.Lint.Linter
import Mathlib.Data.List.Basic
import Mathlib.Data.List.Induction

namespace DesignTokens.Lint

/-!
# Registered rules

Rules are registered and unregistered one after the other.  The linter that
comes of it has each identifier once: a rule is there when the last change about
its identifier registered it, and it runs before those that were not yet there
when it was there to stay.
-/

/-- A change to the rules of a linter. -/
inductive Change where
  | register (rule : Rule)
  | unregister (id : String)

/-- The identifier that a change is about. -/
def Change.id : Change → String
  | .register rule => rule.id
  | .unregister id => id

namespace Linter

/-- The linter after a change. -/
def change (linter : Linter) : Change → Linter
  | .register rule => linter.register rule
  | .unregister id => linter.unregister id

/-- The linter that changes lead to from one without rules. -/
def reached (config : Config) (registry : Registry) (changes : List Change) :
    Linter :=
  changes.foldl change ⟨[], config, registry⟩

end Linter

/-- The last change about the identifier of a rule registered this very rule. -/
def InForce (changes : List Change) (rule : Rule) : Prop :=
  ∃ earlier later,
    changes = earlier ++ .register rule :: later ∧
      ∀ change ∈ later, change.id ≠ rule.id

/-- Some rule of an identifier is in force. -/
def Registered (changes : List Change) (id : String) : Prop :=
  ∃ rule, InForce changes rule ∧ rule.id = id

/-- One identifier was registered when another was not, and has stayed so since. -/
def StaysAhead (changes : List Change) (first second : String) : Prop :=
  ∃ earlier later,
    changes = earlier ++ later ∧
      Registered earlier first ∧ ¬ Registered earlier second ∧
        .unregister first ∉ later

theorem not_inForce_nil
    (rule : Rule) :
    ¬ InForce [] rule := by
  rintro ⟨earlier, later, shape, _⟩
  cases earlier <;> cases shape

/--
A rule is in force after one more change that registers it, or that is
about another one.
-/
theorem inForce_concat_iff
    {changes : List Change}
    {change : Change}
    {rule : Rule} :
    InForce (changes ++ [change]) rule ↔
      change = .register rule ∨ (InForce changes rule ∧ change.id ≠ rule.id) := by
  constructor
  · rintro ⟨earlier, later, shape, untouched⟩
    rcases later.eq_nil_or_concat with rfl | ⟨between, last, rfl⟩
    · obtain ⟨_, isLast⟩ := List.append_inj' shape rfl
      exact .inl (List.cons.inj isLast).1
    · have reshaped : changes ++ [change] =
          (earlier ++ .register rule :: between) ++ [last] := by
        simpa using shape
      obtain ⟨isBefore, isLast⟩ := List.append_inj' reshaped rfl
      obtain rfl := (List.cons.inj isLast).1
      refine .inr ⟨⟨earlier, between, isBefore, ?_⟩, untouched change (by simp)⟩
      exact fun other isOther => untouched other (by simp [isOther])
  · rintro (rfl | ⟨⟨earlier, later, rfl, untouched⟩, otherId⟩)
    · exact ⟨changes, [], rfl, by simp⟩
    · refine ⟨earlier, later ++ [change], by simp, ?_⟩
      intro other isOther
      rcases List.mem_append.mp isOther with isLater | isLast
      · exact untouched other isLater
      · rwa [List.mem_singleton.mp isLast]

/--
An identifier is registered after one more change that does so, or that is
about another one.
-/
theorem registered_concat_iff
    {changes : List Change}
    {change : Change}
    {id : String} :
    Registered (changes ++ [change]) id ↔
      (∃ rule, change = .register rule ∧ rule.id = id) ∨
        (Registered changes id ∧ change.id ≠ id) := by
  unfold Registered
  constructor
  · rintro ⟨rule, inForce, rfl⟩
    rcases inForce_concat_iff.mp inForce with isLast | ⟨wasInForce, otherId⟩
    · exact .inl ⟨rule, isLast, rfl⟩
    · exact .inr ⟨⟨rule, wasInForce, rfl⟩, otherId⟩
  · rintro (⟨rule, isLast, rfl⟩ | ⟨⟨rule, wasInForce, rfl⟩, otherId⟩)
    · exact ⟨rule, inForce_concat_iff.mpr (.inl isLast), rfl⟩
    · exact ⟨rule, inForce_concat_iff.mpr (.inr ⟨wasInForce, otherId⟩), rfl⟩

/-- After a registration, its identifier and those from before are registered. -/
theorem registered_concat_register_iff
    {changes : List Change}
    {rule : Rule}
    {id : String} :
    Registered (changes ++ [.register rule]) id ↔
      rule.id = id ∨ Registered changes id := by
  rw [registered_concat_iff]
  constructor
  · rintro (⟨other, same, rfl⟩ | ⟨wasRegistered, _⟩)
    · cases same
      exact .inl rfl
    · exact .inr wasRegistered
  · rintro (rfl | wasRegistered)
    · exact .inl ⟨rule, rfl, rfl⟩
    · by_cases sameId : rule.id = id
      · exact .inl ⟨rule, rfl, sameId⟩
      · exact .inr ⟨wasRegistered, sameId⟩

theorem registered_concat_unregister_iff
    {changes : List Change}
    {removed id : String} :
    Registered (changes ++ [.unregister removed]) id ↔
      Registered changes id ∧ removed ≠ id := by
  rw [registered_concat_iff]
  simp [Change.id]

/-- An identifier that is registered stays so until it is unregistered. -/
theorem Registered.append
    {earlier later : List Change}
    {id : String}
    (registered : Registered earlier id)
    (stays : .unregister id ∉ later) :
    Registered (earlier ++ later) id := by
  induction later using List.reverseRecOn with
  | nil => simpa using registered
  | append_singleton between change inductionHypothesis =>
      have before := inductionHypothesis (fun isThere => stays (by simp [isThere]))
      rw [← List.append_assoc]
      cases change with
      | register rule => exact registered_concat_register_iff.mpr (.inr before)
      | unregister removed =>
          have otherId : removed ≠ id := by
            rintro rfl
            exact stays (by simp)
          exact registered_concat_unregister_iff.mpr ⟨before, otherId⟩

theorem StaysAhead.registered
    {changes : List Change}
    {first second : String}
    (ahead : StaysAhead changes first second) :
    Registered changes first := by
  obtain ⟨earlier, later, rfl, registered, _, stays⟩ := ahead
  exact registered.append stays

/--
An identifier is ahead of another after one more change when it gets or
stays ahead by it.
-/
theorem staysAhead_concat_iff
    {changes : List Change}
    {change : Change}
    {first second : String} :
    StaysAhead (changes ++ [change]) first second ↔
      (Registered (changes ++ [change]) first ∧
        ¬ Registered (changes ++ [change]) second) ∨
        (StaysAhead changes first second ∧ change ≠ .unregister first) := by
  constructor
  · rintro ⟨earlier, later, shape, registered, unregistered, stays⟩
    rcases later.eq_nil_or_concat with rfl | ⟨between, last, rfl⟩
    · rw [List.append_nil] at shape
      exact .inl ⟨shape ▸ registered, shape ▸ unregistered⟩
    · have reshaped : changes ++ [change] = (earlier ++ between) ++ [last] := by
        simpa using shape
      obtain ⟨isBefore, isLast⟩ := List.append_inj' reshaped rfl
      obtain rfl := (List.cons.inj isLast).1
      refine .inr ⟨⟨earlier, between, isBefore, registered, unregistered, ?_⟩, ?_⟩
      · exact fun isThere => stays (by simp [isThere])
      · rintro rfl
        exact stays (by simp)
  · rintro (⟨registered, unregistered⟩ |
      ⟨⟨earlier, later, rfl, registered, unregistered, stays⟩, keeps⟩)
    · exact ⟨changes ++ [change], [], by simp, registered, unregistered, by simp⟩
    · refine ⟨earlier, later ++ [change], by simp, registered, unregistered, ?_⟩
      intro isThere
      rcases List.mem_append.mp isThere with isLater | isLast
      · exact stays isLater
      · exact keeps (List.mem_singleton.mp isLast).symm

/--
Where the second identifier is registered, only one that was ahead of it
can be so still.
-/
theorem registered_and_staysAhead_concat_iff
    {changes : List Change}
    {change : Change}
    {first second : String} :
    Registered (changes ++ [change]) second ∧
      StaysAhead (changes ++ [change]) first second ↔
      Registered (changes ++ [change]) second ∧
        StaysAhead changes first second ∧ change ≠ .unregister first := by
  rw [staysAhead_concat_iff]
  constructor
  · rintro ⟨isThere, ⟨_, notThere⟩ | stays⟩
    · exact (notThere isThere).elim
    · exact ⟨isThere, stays⟩
  · rintro ⟨isThere, stays⟩
    exact ⟨isThere, .inr stays⟩

namespace Linter

/-- A placed rule keeps the place of its identifier, or comes last. -/
theorem map_id_placeRule
    (rule : Rule)
    (rules : List Rule) :
    (placeRule rule rules).map Rule.id =
      if rule.id ∈ rules.map Rule.id then rules.map Rule.id
      else rules.map Rule.id ++ [rule.id] := by
  induction rules with
  | nil => rfl
  | cons first rest inductionHypothesis =>
      by_cases sameId : first.id = rule.id
      · simp [placeRule, sameId]
      · rw [placeRule, if_neg sameId, List.map_cons, inductionHypothesis]
        by_cases isLater : rule.id ∈ rest.map Rule.id
        · simp [isLater]
        · simp [isLater, Ne.symm sameId]

/-- A placed rule is there with those of other identifiers. -/
theorem mem_placeRule_iff
    {rule other : Rule}
    {rules : List Rule}
    (distinct : (rules.map Rule.id).Nodup) :
    other ∈ placeRule rule rules ↔
      other = rule ∨ (other ∈ rules ∧ rule.id ≠ other.id) := by
  induction rules with
  | nil => simp [placeRule]
  | cons first rest inductionHypothesis =>
      obtain ⟨isNew, restDistinct⟩ := List.nodup_cons.mp distinct
      by_cases sameId : first.id = rule.id
      · have otherIds : ∀ later ∈ rest, rule.id ≠ later.id := by
          intro later isLater same
          exact isNew (sameId ▸ same ▸ List.mem_map_of_mem isLater)
        rw [placeRule, if_pos sameId, List.mem_cons, List.mem_cons]
        constructor
        · rintro (isRule | isLater)
          · exact .inl isRule
          · exact .inr ⟨.inr isLater, otherIds other isLater⟩
        · rintro (isRule | ⟨rfl | isLater, otherId⟩)
          · exact .inl isRule
          · exact (otherId sameId.symm).elim
          · exact .inr isLater
      · rw [placeRule, if_neg sameId, List.mem_cons, List.mem_cons,
          inductionHypothesis restDistinct]
        constructor
        · rintro (rfl | isRule | ⟨isLater, otherId⟩)
          · exact .inr ⟨.inl rfl, Ne.symm sameId⟩
          · exact .inl isRule
          · exact .inr ⟨.inr isLater, otherId⟩
        · rintro (isRule | ⟨rfl | isLater, otherId⟩)
          · exact .inr (.inl isRule)
          · exact .inl rfl
          · exact .inr (.inr ⟨isLater, otherId⟩)

/-- The identifiers after a change. -/
theorem ids_change
    (linter : Linter)
    (change : Change) :
    (linter.change change).ids =
      match change with
      | .register rule =>
          if rule.id ∈ linter.ids then linter.ids else linter.ids ++ [rule.id]
      | .unregister id => linter.ids.filter (· != id) := by
  cases change with
  | register rule => exact map_id_placeRule rule linter.rules
  | unregister id =>
      simp [Linter.change, unregister, ids, List.filter_map, Function.comp_def]

theorem nodup_ids_change
    {linter : Linter}
    (distinct : linter.ids.Nodup)
    (change : Change) :
    (linter.change change).ids.Nodup := by
  rw [ids_change]
  cases change with
  | register rule =>
      simp only
      split
      · exact distinct
      · rename_i isNew
        rw [List.nodup_append]
        refine ⟨distinct, by simp, ?_⟩
        rintro known isKnown added isAdded rfl
        exact isNew (List.mem_singleton.mp isAdded ▸ isKnown)
  | unregister id => exact distinct.filter _

/--
A rule is there after a change that registers it, or that is about another one.
-/
theorem mem_rules_change_iff
    {linter : Linter}
    (distinct : linter.ids.Nodup)
    {change : Change}
    {rule : Rule} :
    rule ∈ (linter.change change).rules ↔
      change = .register rule ∨ (rule ∈ linter.rules ∧ change.id ≠ rule.id) := by
  cases change with
  | register other =>
      rw [Linter.change, register, mem_placeRule_iff distinct, Change.id]
      simp [eq_comm]
  | unregister id =>
      rw [Linter.change, unregister, List.mem_filter, bne_iff_ne, ne_comm,
        Change.id]
      simp

theorem reached_concat
    (config : Config)
    (registry : Registry)
    (changes : List Change)
    (change : Change) :
    reached config registry (changes ++ [change]) =
      (reached config registry changes).change change := by
  simp [reached]

/-- The rules of a linter are what the changes that led to it have left in force. -/
structure Follows (linter : Linter) (changes : List Change) : Prop where
  distinct : linter.ids.Nodup
  inForce : ∀ rule, rule ∈ linter.rules ↔ InForce changes rule
  order :
    ∀ first second,
      [first, second].Sublist linter.ids ↔
        Registered changes second ∧ StaysAhead changes first second

theorem Follows.mem_ids_iff
    {linter : Linter}
    {changes : List Change}
    (follows : linter.Follows changes)
    {id : String} :
    id ∈ linter.ids ↔ Registered changes id := by
  simp only [ids, List.mem_map, Registered, follows.inForce]

/-- Without changes there are no rules. -/
theorem follows_nil
    (config : Config)
    (registry : Registry) :
    (reached config registry []).Follows [] := by
  constructor
  · exact List.nodup_nil
  · intro rule
    simp [reached, not_inForce_nil]
  · intro first second
    simp [reached, ids, Registered, not_inForce_nil]

/--
A pair stands in a longer list when it stands in the list, or ends
with the last item.
-/
theorem pair_sublist_concat_iff
    {first second last : String}
    {items : List String} :
    [first, second].Sublist (items ++ [last]) ↔
      [first, second].Sublist items ∨ (first ∈ items ∧ second = last) := by
  rw [List.sublist_append_iff]
  constructor
  · rintro ⟨front, back, shape, frontInside, backInside⟩
    rcases List.sublist_singleton.mp backInside with rfl | rfl
    · rw [List.append_nil] at shape
      exact .inl (shape ▸ frontInside)
    · obtain ⟨rfl, isLast⟩ : [first] = front ∧ [second] = [last] :=
        List.append_inj' (show [first] ++ [second] = front ++ [last] from shape) rfl
      exact .inr ⟨List.singleton_sublist.mp frontInside, (List.cons.inj isLast).1⟩
  · rintro (inside | ⟨isFirst, rfl⟩)
    · exact ⟨[first, second], [], rfl, inside, List.nil_sublist _⟩
    · exact ⟨[first], [second], rfl, List.singleton_sublist.mpr isFirst,
        List.Sublist.refl _⟩

/--
A pair stands in a list without an item when it stands in the list and
avoids the item.
-/
theorem pair_sublist_filter_iff
    {first second removed : String}
    {items : List String} :
    [first, second].Sublist (items.filter (· != removed)) ↔
      [first, second].Sublist items ∧ removed ≠ first ∧ removed ≠ second := by
  constructor
  · intro inside
    have kept (item : String) (isItem : item ∈ [first, second]) : removed ≠ item :=
      Ne.symm (bne_iff_ne.mp (List.mem_filter.mp (inside.subset isItem)).2)
    exact ⟨inside.trans List.filter_sublist, kept first (by simp),
      kept second (by simp)⟩
  · rintro ⟨inside, otherFirst, otherSecond⟩
    have bothKept : [first, second].filter (· != removed) = [first, second] := by
      simp [Ne.symm otherFirst, Ne.symm otherSecond]
    exact bothKept ▸ inside.filter _

/--
With one more identifier at the end unless it is there, the order is as before.
-/
theorem Follows.pair_ids_register_iff
    {linter : Linter}
    {changes : List Change}
    (follows : linter.Follows changes)
    (added first second : String) :
    [first, second].Sublist
        (if added ∈ linter.ids then linter.ids else linter.ids ++ [added]) ↔
      (added = second ∨ Registered changes second) ∧
        StaysAhead changes first second := by
  split
  · rename_i isThere
    rw [follows.order]
    constructor
    · rintro ⟨isRegistered, ahead⟩
      exact ⟨.inr isRegistered, ahead⟩
    · rintro ⟨rfl | isRegistered, ahead⟩
      · exact ⟨follows.mem_ids_iff.mp isThere, ahead⟩
      · exact ⟨isRegistered, ahead⟩
  · rename_i isNew
    rw [pair_sublist_concat_iff, follows.order, follows.mem_ids_iff]
    constructor
    · rintro (⟨isRegistered, ahead⟩ | ⟨firstRegistered, rfl⟩)
      · exact ⟨.inr isRegistered, ahead⟩
      -- The first one gets ahead right before this change: the second is not yet
      -- there.
      · refine ⟨.inl rfl, changes, [], by simp, firstRegistered, ?_, by simp⟩
        exact fun isRegistered => isNew (follows.mem_ids_iff.mpr isRegistered)
    · rintro ⟨rfl | isRegistered, ahead⟩
      · exact .inr ⟨ahead.registered, rfl⟩
      · exact .inl ⟨isRegistered, ahead⟩

/-- Without an identifier, the order of the others is as before. -/
theorem Follows.pair_ids_unregister_iff
    {linter : Linter}
    {changes : List Change}
    (follows : linter.Follows changes)
    (removed first second : String) :
    [first, second].Sublist (linter.ids.filter (· != removed)) ↔
      (Registered changes second ∧ removed ≠ second) ∧
        StaysAhead changes first second ∧ removed ≠ first := by
  rw [pair_sublist_filter_iff, follows.order]
  constructor
  · rintro ⟨⟨isRegistered, ahead⟩, otherFirst, otherSecond⟩
    exact ⟨⟨isRegistered, otherSecond⟩, ahead, otherFirst⟩
  · rintro ⟨⟨isRegistered, otherSecond⟩, ahead, otherFirst⟩
    exact ⟨⟨isRegistered, ahead⟩, otherFirst, otherSecond⟩

/-- A change leaves the rules in the order in which they got ahead of each other. -/
theorem Follows.order_change
    {linter : Linter}
    {changes : List Change}
    (follows : linter.Follows changes)
    (change : Change)
    (first second : String) :
    [first, second].Sublist (linter.change change).ids ↔
      Registered (changes ++ [change]) second ∧
        StaysAhead (changes ++ [change]) first second := by
  rw [registered_and_staysAhead_concat_iff, ids_change]
  cases change with
  | register rule =>
      rw [registered_concat_register_iff]
      simpa using follows.pair_ids_register_iff rule.id first second
  | unregister removed =>
      rw [registered_concat_unregister_iff]
      simpa using follows.pair_ids_unregister_iff removed first second

/-- A change keeps a linter in step with its changes. -/
theorem Follows.change
    {linter : Linter}
    {changes : List Change}
    (follows : linter.Follows changes)
    (change : Change) :
    (linter.change change).Follows (changes ++ [change]) where
  distinct := nodup_ids_change follows.distinct change
  inForce rule := by
    rw [mem_rules_change_iff follows.distinct, follows.inForce, inForce_concat_iff]
  order := follows.order_change change

/-- A linter that is reached by changes follows them. -/
theorem follows_reached
    (config : Config)
    (registry : Registry)
    (changes : List Change) :
    (reached config registry changes).Follows changes := by
  induction changes using List.reverseRecOn with
  | nil => exact follows_nil config registry
  | append_singleton earlier change inductionHypothesis =>
      rw [reached_concat]
      exact inductionHypothesis.change change

end Linter

end DesignTokens.Lint
