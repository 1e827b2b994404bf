import DesignTokens.Proofs.Source.Stylesheet
import DesignTokens.Proofs.Walk
import DesignTokens.Proofs.Wire.Members
import Mathlib.Data.List.Perm.Subperm

namespace DesignTokens.Stylesheet

/-!
# Types of names

A name has the type of the value that its first value comes to when references
are followed.  Names that refer to each other come to the same value, so they
have the same type unless it is a number, which is a font weight under one name
and a plain number under another.
-/

open DesignTokens.Text
open Relation

/-- The value of a name refers to another name that has a value. -/
def Refers (values : List (String × String)) (name next : String) : Prop :=
  ∃ value target,
    Wire.lookup? name values = some value ∧
      variableOf? value = some next ∧
      Wire.lookup? next values = some target

theorem Refers.unique
    (values : List (String × String)) :
    Relator.RightUnique (Refers values) := by
  rintro name first second
    ⟨firstValue, _, isFirst, firstRefers, _⟩
    ⟨secondValue, _, isSecond, secondRefers, _⟩
  obtain rfl := Option.some.inj (isFirst.symm.trans isSecond)
  exact Option.some.inj (firstRefers.symm.trans secondRefers)

/-- A name whose value refers to no other leads nowhere. -/
theorem not_refers_of_value
    {values : List (String × String)}
    {name value : String}
    (isValue : Wire.lookup? name values = some value)
    (refersNot : variableOf? value = none)
    (next : String) :
    ¬ Refers values name next := by
  rintro ⟨other, _, isOther, refers, _⟩
  obtain rfl := Option.some.inj (isValue.symm.trans isOther)
  cases refersNot.symm.trans refers

/-- A name whose value refers to a name without a value leads nowhere. -/
theorem not_refers_of_missing
    {values : List (String × String)}
    {name value target : String}
    (isValue : Wire.lookup? name values = some value)
    (refers : variableOf? value = some target)
    (isMissing : Wire.lookup? target values = none)
    (next : String) :
    ¬ Refers values name next := by
  rintro ⟨other, _, isOther, otherRefers, isThere⟩
  obtain rfl := Option.some.inj (isValue.symm.trans isOther)
  obtain rfl := Option.some.inj (refers.symm.trans otherRefers)
  cases isMissing.symm.trans isThere

/-- Only the first value of a name is kept. -/
theorem lookup?_firstValues
    (name : String)
    (named : List (String × String)) :
    Wire.lookup? name (firstValues named) = Wire.lookup? name named := by
  have kept (known : List (String × String)) :
      Wire.lookup? name
        (named.foldl (fun known one => if Wire.has one.1 known then known
        else known ++ [one]) known) =
          (Wire.lookup? name known).or (Wire.lookup? name named) := by
    induction named generalizing known with
    | nil => simp [Wire.lookup?]
    | cons one rest inductionHypothesis =>
        rw [List.foldl_cons, inductionHypothesis]
        by_cases isKnown : Wire.has one.1 known = true
        · rw [if_pos isKnown]
          by_cases sameName : one.1 = name
          · obtain ⟨value, isThere⟩ := Option.isSome_iff_exists.mp isKnown
            rw [← sameName, isThere]
            rfl
          · simp [Wire.lookup?, sameName]
        · rw [if_neg isKnown, Wire.lookup?_append, Option.or_assoc]
          by_cases sameName : one.1 = name
          · simp [Wire.lookup?, sameName]
          · simp [Wire.lookup?, sameName]
  exact kept []

/-- Following references comes to the value of a name that is reached. -/
theorem exists_reached_of_follow
    {values : List (String × String)}
    {name value : String}
    (isValue : Wire.lookup? name values = some value)
    (steps : Nat)
    (passed : List String) :
    ∃ last,
      ReflTransGen (Refers values) name last ∧
        Wire.lookup? last values = some (follow values steps passed value) := by
  induction steps generalizing name value passed with
  | zero => exact ⟨name, .refl, isValue⟩
  | succ steps inductionHypothesis =>
      unfold follow
      split
      · exact ⟨name, .refl, isValue⟩
      · rename_i next refers
        split
        · exact ⟨name, .refl, isValue⟩
        · split
          · rename_i target isTarget
            obtain ⟨last, reached, isLast⟩ :=
              inductionHypothesis isTarget (next :: passed)
            exact ⟨last, reached.head ⟨value, target, isValue, refers, isTarget⟩,
              isLast⟩
          · exact ⟨name, .refl, isValue⟩

/-- With enough steps, following references comes to the value at the end. -/
theorem follow_of_endsAt
    {values : List (String × String)}
    {name value last : String}
    (isValue : Wire.lookup? name values = some value)
    (ends : EndsAt (Refers values) name last)
    {steps : Nat}
    {passed : List String}
    (distinct : passed.Nodup)
    (known : passed ⊆ values.map Prod.fst)
    (arrived : ∀ earlier ∈ passed, ReflTransGen (Refers values) earlier name)
    (enough : values.length < steps + passed.length) :
    Wire.lookup? last values = some (follow values steps passed value) := by
  induction steps generalizing name value passed with
  | zero =>
      -- More names were passed than there are.
      have isBound := (distinct.subperm known).length_le
      rw [List.length_map] at isBound
      omega
  | succ steps inductionHypothesis =>
      unfold follow
      split
      · rename_i refersNot
        rwa [(reflTransGen_iff_eq (not_refers_of_value isValue refersNot)).mp
          ends.1]
      · rename_i next refers
        cases isTarget : Wire.lookup? next values with
        | none =>
            have isEnd : Wire.lookup? last values = some value := by
              rwa [(reflTransGen_iff_eq
                (not_refers_of_missing isValue refers isTarget)).mp ends.1]
            split
            · exact isEnd
            · exact isEnd
        | some target =>
            have hop : Refers values name next :=
              ⟨value, target, isValue, refers, isTarget⟩
            have onward : EndsAt (Refers values) next last :=
              (endsAt_iff_of_hop (Refers.unique values) hop).mp ends
            have isNew : next ∉ passed := by
              intro isPassed
              exact onward.not_returns (Refers.unique values)
                (TransGen.tail' (arrived next isPassed) hop)
            rw [if_neg (by simpa using isNew)]
            apply inductionHypothesis isTarget onward
            · exact List.nodup_cons.mpr ⟨isNew, distinct⟩
            · apply List.cons_subset.mpr
              exact ⟨List.mem_map.mpr ⟨_, mem_of_lookup? isTarget, rfl⟩, known⟩
            · intro earlier isEarlier
              rcases List.mem_cons.mp isEarlier with rfl | isPassed
              · exact .refl
              · exact (arrived earlier isPassed).tail hop
            · rw [List.length_cons]
              omega

/--
A value that comes to an end has the type of the value there,
under its own name.
-/
theorem followedType_of_endsAt
    {values : List (String × String)}
    {name value last reached : String}
    (isValue : Wire.lookup? name values = some value)
    (ends : EndsAt (Refers values) name last)
    (isReached : Wire.lookup? last values = some reached) :
    followedType values name value =
      if (variableOf? reached).isSome then .ok "string"
      else typeOf name reached := by
  have isThere : name ∈ values.map Prod.fst :=
    List.mem_map.mpr ⟨_, mem_of_lookup? isValue, rfl⟩
  have isFollowed : Wire.lookup? last values =
      some (follow values values.length [name] value) := by
    apply follow_of_endsAt isValue ends
    · exact List.pairwise_singleton _ name
    · simpa using isThere
    · intro earlier isEarlier
      rw [List.mem_singleton.mp isEarlier]
    · simp
  obtain rfl := Option.some.inj (isReached.symm.trans isFollowed)
  unfold followedType
  simp only
  split
  · rename_i refers
    simp [refers]
  · rename_i refersNot
    simp [refersNot]

/-- A value that comes to no end has the type of a text. -/
theorem followedType_of_endless
    {values : List (String × String)}
    {name value : String}
    (isValue : Wire.lookup? name values = some value)
    (endless : ∀ last, ¬ EndsAt (Refers values) name last) :
    followedType values name value = .ok "string" := by
  obtain ⟨last, reached, isLast⟩ :=
    exists_reached_of_follow isValue values.length [name]
  unfold followedType
  simp only
  split
  · rfl
  · rename_i refersNot
    exact (endless last ⟨reached, not_refers_of_value isLast refersNot⟩).elim

/-- Whether a name hints at a font weight. -/
def hinted (name : String) : Bool :=
  weightHints.any (fun hint => containsText hint (lower name))

/--
A number that is a font weight under one of two names and not under the other.
-/
structure WeightInDoubt (first second value : String) : Prop where
  isNumber : isNumberText (trim value) = true
  isWeight : FontWeight.isWeightText (trim value) = .ok true
  hints : hinted first ≠ hinted second

theorem isFontWeight_eq_map
    (name value : String) :
    isFontWeight name value =
      (FontWeight.isWeightText value).map
        (fun written => written && (!isNumberText value || hinted name)) := by
  unfold isFontWeight hinted
  generalize FontWeight.isWeightText value = written
  cases written with
  | error fault => rfl
  | ok isWritten => rfl

/-- The name only matters for the type of a number that may be a font weight. -/
theorem typeOf_eq_or
    (first second value : String) :
    typeOf first value = typeOf second value ∨
      WeightInDoubt first second value := by
  by_cases same : isFontWeight first (trim value) = isFontWeight second (trim value)
  · left
    unfold typeOf
    simp only [same]
  · right
    rw [isFontWeight_eq_map, isFontWeight_eq_map] at same
    cases isWeight : FontWeight.isWeightText (trim value) with
    | error fault => simp [isWeight, Except.map] at same
    | ok written =>
        simp only [isWeight, Except.map, Except.ok.injEq] at same
        cases written with
        | false => simp at same
        | true =>
            refine ⟨?_, isWeight, ?_⟩
            · by_contra noNumber
              rw [eq_false_of_ne_true noNumber] at same
              simp at same
            · intro sameHint
              simp [sameHint] at same

/-- A value that refers to a name without a value has the type of a text. -/
theorem followedType_of_missing
    {values : List (String × String)}
    {name value next : String}
    (isValue : Wire.lookup? name values = some value)
    (refers : variableOf? value = some next)
    (isMissing : Wire.lookup? next values = none) :
    followedType values name value = .ok "string" := by
  have ends : EndsAt (Refers values) name name :=
    ⟨.refl, not_refers_of_missing isValue refers isMissing⟩
  rw [followedType_of_endsAt isValue ends isValue, refers]
  rfl

/--
A name that refers to another one has its type, unless a font
weight is in doubt.
-/
theorem followedType_of_refers
    {values : List (String × String)}
    {name value next target : String}
    (isValue : Wire.lookup? name values = some value)
    (refers : variableOf? value = some next)
    (isTarget : Wire.lookup? next values = some target) :
    followedType values name value = followedType values next target ∨
      ∃ last reached,
        EndsAt (Refers values) next last ∧
          Wire.lookup? last values = some reached ∧
          WeightInDoubt name next reached := by
  have hop : Refers values name next := ⟨value, target, isValue, refers, isTarget⟩
  have sameEnd (last : String) :
      EndsAt (Refers values) name last ↔ EndsAt (Refers values) next last :=
    endsAt_iff_of_hop (Refers.unique values) hop
  by_cases comesToEnd : ∃ last, EndsAt (Refers values) next last
  · obtain ⟨last, ends⟩ := comesToEnd
    obtain ⟨reached, isReached⟩ :
        ∃ reached, Wire.lookup? last values = some reached := by
      rcases ReflTransGen.cases_tail ends.1 with
        rfl | ⟨earlier, _, _, found, _, _, isThere⟩
      · exact ⟨target, isTarget⟩
      · exact ⟨found, isThere⟩
    rw [followedType_of_endsAt isTarget ends isReached,
      followedType_of_endsAt isValue ((sameEnd last).mpr ends) isReached]
    rcases typeOf_eq_or name next reached with sameType | inDoubt
    · rw [sameType]
      exact .inl rfl
    · exact .inr ⟨last, reached, ends, isReached, inDoubt⟩
  · have endless (last : String) : ¬ EndsAt (Refers values) next last :=
      fun ends => comesToEnd ⟨last, ends⟩
    rw [followedType_of_endless isTarget endless,
      followedType_of_endless isValue
        (fun last ends => endless last ((sameEnd last).mp ends))]
    exact .inl rfl

/-! The types of all names. -/

theorem refers_firstValues
    (named : List (String × String)) :
    Refers (firstValues named) = Refers named := by
  funext name next
  simp only [Refers, lookup?_firstValues]

/-- A name is given a type when it has a value, by its first value. -/
theorem lookup?_typesByName
    {named types : List (String × String)}
    (areTypes : typesByName named = .ok types)
    (name : String) :
    (Wire.lookup? name named = none → Wire.lookup? name types = none) ∧
      ∀ value, Wire.lookup? name named = some value →
        ∃ tag, followedType (firstValues named) name value = .ok tag ∧
          Wire.lookup? name types = some tag := by
  have looked := Wire.lookup?_of_mapM areTypes name
  rwa [lookup?_firstValues] at looked

/-- A name whose value refers to no other has the type of that value. -/
theorem type_of_value
    {named types : List (String × String)}
    (areTypes : typesByName named = .ok types)
    {name value : String}
    (isValue : Wire.lookup? name named = some value)
    (refersNot : variableOf? value = none) :
    ∃ tag, typeOf name value = .ok tag ∧ Wire.lookup? name types = some tag := by
  obtain ⟨tag, isFollowed, isType⟩ :=
    (lookup?_typesByName areTypes name).2 value isValue
  rw [← lookup?_firstValues] at isValue
  have ends : EndsAt (Refers (firstValues named)) name name :=
    ⟨.refl, not_refers_of_value isValue refersNot⟩
  rw [followedType_of_endsAt isValue ends isValue, refersNot] at isFollowed
  exact ⟨tag, isFollowed, isType⟩

/--
A name whose value refers to another has its type, unless a font
weight is in doubt.
-/
theorem type_of_reference
    {named types : List (String × String)}
    (areTypes : typesByName named = .ok types)
    {name value next : String}
    (isValue : Wire.lookup? name named = some value)
    (refers : variableOf? value = some next) :
    Wire.lookup? name types = some ((Wire.lookup? next types).getD "string") ∨
      ∃ last reached,
        EndsAt (Refers named) next last ∧
          Wire.lookup? last named = some reached ∧
          WeightInDoubt name next reached := by
  obtain ⟨tag, isFollowed, isType⟩ :=
    (lookup?_typesByName areTypes name).2 value isValue
  rw [← lookup?_firstValues] at isValue
  rw [isType]
  cases isTarget : Wire.lookup? next named with
  | none =>
      have isMissing := isTarget
      rw [← lookup?_firstValues] at isMissing
      rw [followedType_of_missing isValue refers isMissing] at isFollowed
      rw [(lookup?_typesByName areTypes next).1 isTarget, ← Except.ok.inj
        isFollowed]
      exact .inl rfl
  | some target =>
      obtain ⟨nextTag, nextFollowed, isNextType⟩ :=
        (lookup?_typesByName areTypes next).2 target isTarget
      rw [← lookup?_firstValues] at isTarget
      rcases followedType_of_refers isValue refers isTarget with
        sameType | ⟨last, reached, ends, isReached, inDoubt⟩
      · have sameTag := isFollowed.symm.trans (sameType.trans nextFollowed)
        rw [isNextType, Except.ok.inj sameTag]
        exact .inl rfl
      · rw [refers_firstValues] at ends
        rw [lookup?_firstValues] at isReached
        exact .inr ⟨last, reached, ends, isReached, inDoubt⟩

end DesignTokens.Stylesheet
