import DesignTokens.Proofs.Reading
import DesignTokens.Wire.Basic

namespace DesignTokens.Wire

/-!
# Members of objects

What looking up a name gives in objects that are put together from parts, and
what adding members one after the other makes of repeated names.
-/

variable {α β : Type}

/-- A name is looked up in the first part and then in the second. -/
theorem lookup?_append
    (name : String)
    (first second : List (String × α)) :
    lookup? name (first ++ second) =
      (lookup? name first).or (lookup? name second) := by
  induction first with
  | nil => rfl
  | cons member rest inductionHypothesis =>
      by_cases sameName : member.1 = name
      · simp [lookup?, sameName]
      · simpa [lookup?, sameName] using inductionHypothesis

/-- Nothing is found under a name exactly when no member has it. -/
theorem lookup?_eq_none_iff
    {name : String}
    {members : List (String × α)} :
    lookup? name members = none ↔ name ∉ members.map Prod.fst := by
  induction members with
  | nil => simp [lookup?]
  | cons member rest inductionHypothesis =>
      by_cases sameName : member.1 = name
      · simp [lookup?, sameName]
      · have otherName : name ≠ member.1 := Ne.symm sameName
        rw [lookup?, if_neg sameName, inductionHypothesis, List.map_cons,
          List.mem_cons]
        simp [otherName]

/-- Among distinct names, a member is what looking up its name gives. -/
theorem lookup?_of_mem
    {members : List (String × α)}
    (distinct : (members.map Prod.fst).Nodup)
    {name : String}
    {value : α}
    (isMember : (name, value) ∈ members) :
    lookup? name members = some value := by
  induction members with
  | nil => cases isMember
  | cons first rest inductionHypothesis =>
      obtain ⟨isNew, restDistinct⟩ := List.nodup_cons.mp distinct
      rcases List.mem_cons.mp isMember with rfl | inRest
      · rw [lookup?, if_pos rfl]
      · have otherName : first.1 ≠ name := by
          rintro rfl
          exact isNew (List.mem_map.mpr ⟨_, inRest, rfl⟩)
        rw [lookup?, if_neg otherName]
        exact inductionHypothesis restDistinct inRest

/--
When members are read one by one under their names, a name gives what its
member is read as.
-/
theorem lookup?_of_mapM
    {ε : Type}
    {read : String → α → Except ε β}
    {members : List (String × α)}
    {results : List (String × β)}
    (areRead :
      members.mapM (fun member => do
        let result ← read member.1 member.2
        return (member.1, result)) = .ok results)
    (name : String) :
    (lookup? name members = none → lookup? name results = none) ∧
      ∀ value, lookup? name members = some value →
        ∃ result, read name value = .ok result ∧
          lookup? name results = some result := by
  induction members generalizing results with
  | nil =>
      obtain rfl := pure_eq_ok_iff.mp areRead
      exact ⟨fun _ => rfl, fun value isThere => by cases isThere⟩
  | cons member rest inductionHypothesis =>
      rw [List.mapM_cons] at areRead
      obtain ⟨first, isFirst, afterFirst⟩ := bind_eq_ok_iff.mp areRead
      obtain ⟨result, isResult, isPair⟩ := bind_eq_ok_iff.mp isFirst
      obtain rfl := pure_eq_ok_iff.mp isPair
      obtain ⟨others, areOthers, areAll⟩ := bind_eq_ok_iff.mp afterFirst
      obtain rfl := pure_eq_ok_iff.mp areAll
      by_cases sameName : member.1 = name
      · subst sameName
        simp only [lookup?, if_pos]
        constructor
        · intro isMissing
          cases isMissing
        · intro value isValue
          obtain rfl := Option.some.inj isValue
          exact ⟨result, isResult, rfl⟩
      · simp only [lookup?, if_neg sameName]
        exact inductionHypothesis areOthers

/-- Asking an object for a name with a default. -/
theorem getD_obj
    (name : String)
    (members : List (String × Wire))
    (default : Wire) :
    getD name (.obj members) default = .ok ((lookup? name members).getD default) :=
  rfl

/-- A required name that is found stands in an object. -/
theorem require_eq_ok
    {name : String}
    {data value : Wire}
    (succeeded : require name data = .ok value) :
    ∃ members, data = .obj members ∧ lookup? name members = some value := by
  cases data with
  | obj members =>
      refine ⟨members, rfl, ?_⟩
      cases isThere : lookup? name members with
      | none =>
          rw [require, isThere] at succeeded
          cases succeeded
      | some found =>
          rw [require, isThere] at succeeded
          exact congrArg some (Except.ok.inj succeeded)
  | _ => cases succeeded

/-- Only an object can be asked for a name. -/
theorem getD_eq_ok
    {name : String}
    {data default value : Wire}
    (succeeded : getD name data default = .ok value) :
    ∃ members, data = .obj members ∧
      value = (lookup? name members).getD default := by
  cases data with
  | obj members => exact ⟨members, rfl, (Except.ok.inj succeeded).symm⟩
  | _ => cases succeeded

/-- Inserting a member changes what is found under its name, and nothing else. -/
theorem lookup?_insert
    (name other : String)
    (value : α)
    (members : List (String × α)) :
    lookup? other (insert name value members) =
      if other = name then some value else lookup? other members := by
  induction members with
  | nil => simp [insert, lookup?, eq_comm]
  | cons first rest inductionHypothesis =>
      by_cases sameName : first.1 = name
      · rw [insert, if_pos sameName, lookup?, lookup?, sameName]
        by_cases isName : other = name
        · simp [isName]
        · simp [isName, Ne.symm isName]
      · rw [insert, if_neg sameName, lookup?, lookup?, inductionHypothesis]
        by_cases isFirst : first.1 = other
        · simp [isFirst ▸ sameName, isFirst]
        · simp [isFirst]

/-- A new name is added at the end. -/
theorem insert_of_not_mem
    {name : String}
    {members : List (String × α)}
    (isNew : name ∉ members.map Prod.fst)
    (value : α) :
    insert name value members = members ++ [(name, value)] := by
  induction members with
  | nil => rfl
  | cons member rest inductionHypothesis =>
      have otherName : name ≠ member.1 := List.ne_of_not_mem_cons isNew
      have newInRest := List.not_mem_of_not_mem_cons isNew
      rw [insert, if_neg (Ne.symm otherName), inductionHypothesis newInRest]
      rfl

/-- A name that is there keeps its place. -/
theorem names_insert_of_mem
    {name : String}
    {members : List (String × α)}
    (isThere : name ∈ members.map Prod.fst)
    (value : α) :
    (insert name value members).map Prod.fst = members.map Prod.fst := by
  induction members with
  | nil => cases isThere
  | cons member rest inductionHypothesis =>
      rw [insert]
      split
      · rename_i sameName
        rw [List.map_cons, List.map_cons, sameName]
      · rename_i otherName
        have inRest := (List.mem_cons.mp isThere).resolve_left (Ne.symm otherName)
        rw [List.map_cons, List.map_cons, inductionHypothesis inRest]

/-- Inserting a member keeps the names distinct. -/
theorem nodup_insert
    {members : List (String × α)}
    (distinct : (members.map Prod.fst).Nodup)
    (name : String)
    (value : α) :
    ((insert name value members).map Prod.fst).Nodup := by
  by_cases isThere : name ∈ members.map Prod.fst
  · rwa [names_insert_of_mem isThere]
  · rw [insert_of_not_mem isThere, List.map_append, List.nodup_append]
    refine ⟨distinct, by simp, ?_⟩
    rintro first isFirst second isSecond rfl
    exact isThere (by simpa [List.mem_singleton.mp isSecond] using isFirst)

/-- A member after an insertion is the inserted one or was there before. -/
theorem mem_of_mem_insert
    {name : String}
    {value : α}
    {member : String × α}
    {members : List (String × α)}
    (isMember : member ∈ insert name value members) :
    member = (name, value) ∨ member ∈ members := by
  induction members with
  | nil => exact .inl (List.mem_singleton.mp isMember)
  | cons first rest inductionHypothesis =>
      rw [insert] at isMember
      split at isMember
      · rcases List.mem_cons.mp isMember with isNew | inRest
        · exact .inl isNew
        · exact .inr (List.mem_cons_of_mem _ inRest)
      · rcases List.mem_cons.mp isMember with isFirst | isLater
        · exact .inr (by simp [isFirst])
        · exact (inductionHypothesis isLater).imp id (List.mem_cons_of_mem _)

/-- Changing the values commutes with an insertion. -/
theorem map_insert
    (change : α → β)
    (name : String)
    (value : α)
    (members : List (String × α)) :
    (insert name value members).map (fun member => (member.1, change member.2)) =
      insert name (change value)
        (members.map (fun member => (member.1, change member.2))) := by
  induction members with
  | nil => rfl
  | cons first rest inductionHypothesis =>
      by_cases sameName : first.1 = name
      · simp [insert, sameName]
      · simp [insert, sameName, inductionHypothesis]

section Folded

/-- Adding one more member. -/
def add (known : List (String × α)) (member : String × α) : List (String × α) :=
  insert member.1 member.2 known

/-- Adding members keeps the names distinct. -/
theorem nodup_foldl_add
    {known : List (String × α)}
    (distinct : (known.map Prod.fst).Nodup)
    (members : List (String × α)) :
    ((members.foldl add known).map Prod.fst).Nodup := by
  induction members generalizing known with
  | nil => exact distinct
  | cons first rest inductionHypothesis =>
      exact inductionHypothesis (nodup_insert distinct first.1 first.2)

/--
After adding members with distinct names, they are found before those
that were there.
-/
theorem lookup?_foldl_add
    {members : List (String × α)}
    (distinct : (members.map Prod.fst).Nodup)
    (name : String)
    (known : List (String × α)) :
    lookup? name (members.foldl add known) =
      (lookup? name members).or (lookup? name known) := by
  induction members generalizing known with
  | nil => rfl
  | cons first rest inductionHypothesis =>
      obtain ⟨isNew, restDistinct⟩ := List.nodup_cons.mp distinct
      rw [List.foldl_cons, inductionHypothesis restDistinct, add, lookup?_insert,
        lookup?]
      by_cases isFirst : first.1 = name
      · have notLater : lookup? name rest = none :=
          lookup?_eq_none_iff.mpr (isFirst ▸ isNew)
        simp [isFirst, notLater]
      · simp [isFirst, Ne.symm isFirst]

/-- Adding members with new and distinct names appends them. -/
private theorem foldl_add_of_nodup
    {known members : List (String × α)}
    (distinct : ((known ++ members).map Prod.fst).Nodup) :
    members.foldl add known = known ++ members := by
  induction members generalizing known with
  | nil => simp
  | cons first rest inductionHypothesis =>
      have isNew : first.1 ∉ known.map Prod.fst := by
        intro isKnown
        rw [List.map_append] at distinct
        exact (List.nodup_append.mp distinct).2.2 first.1 isKnown first.1
          (by simp) rfl
      rw [List.foldl_cons, add, insert_of_not_mem isNew,
        inductionHypothesis (by simpa using distinct)]
      simp

/-- What is there after adding members was there before or is one of them. -/
private theorem mem_of_mem_foldl_add
    {known members : List (String × α)}
    {member : String × α}
    (isMember : member ∈ members.foldl add known) :
    member ∈ known ∨ member ∈ members := by
  induction members generalizing known with
  | nil => exact .inl isMember
  | cons first rest inductionHypothesis =>
      rcases inductionHypothesis isMember with isKnown | inRest
      · rcases mem_of_mem_insert isKnown with isFirst | wasKnown
        · exact .inr (by simp [isFirst])
        · exact .inl wasKnown
      · exact .inr (List.mem_cons_of_mem _ inRest)

/-- Changing the values commutes with adding members. -/
private theorem map_foldl_add
    (change : α → β)
    (known members : List (String × α)) :
    (members.foldl add known).map (fun member => (member.1, change member.2)) =
      (members.map (fun member => (member.1, change member.2))).foldl add
        (known.map (fun member => (member.1, change member.2))) := by
  induction members generalizing known with
  | nil => rfl
  | cons first rest inductionHypothesis =>
      rw [List.foldl_cons, inductionHypothesis, List.map_cons, List.foldl_cons, add,
        add, map_insert]

/-- Members that were added one after the other have distinct names. -/
theorem nodup_ofMembers
    (members : List (String × α)) :
    ((ofMembers members).map Prod.fst).Nodup :=
  nodup_foldl_add (by simp) members

/-- Adding members with distinct names changes nothing. -/
theorem ofMembers_of_nodup
    {members : List (String × α)}
    (distinct : (members.map Prod.fst).Nodup) :
    ofMembers members = members :=
  @foldl_add_of_nodup α [] members distinct

/-- Added members are among the given ones. -/
theorem mem_of_mem_ofMembers
    {members : List (String × α)}
    {member : String × α}
    (isMember : member ∈ ofMembers members) :
    member ∈ members :=
  (mem_of_mem_foldl_add isMember).resolve_left List.not_mem_nil

/-- Changing the values commutes with adding members to nothing. -/
theorem map_ofMembers
    (change : α → β)
    (members : List (String × α)) :
    (ofMembers members).map (fun member => (member.1, change member.2)) =
      ofMembers (members.map (fun member => (member.1, change member.2))) :=
  map_foldl_add change [] members

end Folded

end DesignTokens.Wire
