import DesignTokens.Proofs.Value.Documents
import DesignTokens.Theme.Lookup

namespace DesignTokens.Wire

/-!
# References in documents

The texts that stand under the name of a reference, anywhere in a document.
What holds of all of them holds of the references in every part.
-/

/-- The text of a reference that a member is. -/
def referenceTexts (name : String) : Wire → List String
  | .str text => if name = "$ref" then [text] else []
  | _ => []

mutual

/-- The texts of the references in a value, at any depth. -/
def references : Wire → List String
  | .list items => itemReferences items
  | .obj members => memberReferences members
  | _ => []

/-- The texts of the references in list items. -/
def itemReferences : List Wire → List String
  | [] => []
  | item :: rest => references item ++ itemReferences rest

/-- The texts of the references among members and in their values. -/
def memberReferences : List (String × Wire) → List String
  | [] => []
  | (name, value) :: rest =>
      referenceTexts name value ++ references value ++ memberReferences rest

end

/--
No reference still stands in braces when one pair of them has been taken away.
-/
def BareReferences (data : Wire) : Prop :=
  ∀ text ∈ data.references, ¬ Reference.Braced (Reference.ofText text).path

instance (data : Wire) : Decidable data.BareReferences :=
  inferInstanceAs (Decidable (∀ text ∈ data.references, _))

/-- The references of a list item are references of the list. -/
theorem references_item_subset
    {items : List Wire}
    {item : Wire}
    (isItem : item ∈ items) :
    item.references ⊆ itemReferences items := by
  induction items with
  | nil => cases isItem
  | cons first rest inductionHypothesis =>
      rw [itemReferences]
      rcases List.mem_cons.mp isItem with rfl | inRest
      · exact List.subset_append_left _ _
      · exact List.Subset.trans (inductionHypothesis inRest)
          (List.subset_append_right _ _)

/-- The references in the value of a member are references of the object. -/
theorem references_member_subset
    {members : List (String × Wire)}
    {member : String × Wire}
    (isMember : member ∈ members) :
    member.2.references ⊆ memberReferences members := by
  induction members with
  | nil => cases isMember
  | cons first rest inductionHypothesis =>
      obtain ⟨name, value⟩ := first
      rw [memberReferences]
      rcases List.mem_cons.mp isMember with rfl | inRest
      · exact List.Subset.trans (List.subset_append_right _ _)
          (List.subset_append_left _ _)
      · exact List.Subset.trans (inductionHypothesis inRest)
          (List.subset_append_right _ _)

/-- The text of a member that is a reference is a reference of the object. -/
theorem referenceTexts_subset
    {members : List (String × Wire)}
    {member : String × Wire}
    (isMember : member ∈ members) :
    referenceTexts member.1 member.2 ⊆ memberReferences members := by
  induction members with
  | nil => cases isMember
  | cons first rest inductionHypothesis =>
      obtain ⟨name, value⟩ := first
      rw [memberReferences, List.append_assoc]
      rcases List.mem_cons.mp isMember with rfl | inRest
      · exact List.subset_append_left _ _
      · rw [← List.append_assoc]
        exact List.Subset.trans (inductionHypothesis inRest)
          (List.subset_append_right _ _)

/-- A text is no reference by itself. -/
theorem bareReferences_str
    (text : String) :
    (Wire.str text).BareReferences := by
  simp [BareReferences, references]

namespace BareReferences

/-- What a part refers to, a value of which it is a part refers to. -/
theorem of_subset
    {data part : Wire}
    (bare : data.BareReferences)
    (isPart : part.references ⊆ data.references) :
    part.BareReferences :=
  fun text isText => bare text (isPart isText)

/-- The value of a member. -/
theorem of_member
    {members : List (String × Wire)}
    {member : String × Wire}
    (bare : (Wire.obj members).BareReferences)
    (isMember : member ∈ members) :
    member.2.BareReferences := by
  refine bare.of_subset ?_
  rw [references]
  exact references_member_subset isMember

/-- The reference that an object is. -/
theorem of_lookup?
    {data : Wire}
    {text : String}
    (bare : data.BareReferences)
    (isThere : lookup? "$ref" data.members = some (.str text)) :
    ¬ Reference.Braced (Reference.ofText text).path := by
  cases data with
  | obj members =>
      refine bare text ?_
      rw [references]
      exact referenceTexts_subset (mem_of_lookup? isThere)
        (by simp [referenceTexts])
  | _ => cases isThere

/-- A value under a required name. -/
theorem of_require
    {name : String}
    {data value : Wire}
    (bare : data.BareReferences)
    (isThere : require name data = .ok value) :
    value.BareReferences := by
  obtain ⟨members, rfl, isFound⟩ := require_eq_ok isThere
  exact bare.of_member (mem_of_lookup? isFound)

/-- A value under a name, or a default that is bare as well. -/
theorem of_getD
    {name : String}
    {data default value : Wire}
    (bare : data.BareReferences)
    (defaultBare : default.BareReferences)
    (isThere : getD name data default = .ok value) :
    value.BareReferences := by
  obtain ⟨members, rfl, rfl⟩ := getD_eq_ok isThere
  cases isFound : lookup? name members with
  | none => exact defaultBare
  | some found => exact bare.of_member (mem_of_lookup? isFound)

/-- A part of a value; characters and names hold no references. -/
theorem of_parts
    {data part : Wire}
    {parts : List Wire}
    (bare : data.BareReferences)
    (areParts : data.parts = .ok parts)
    (isPart : part ∈ parts) :
    part.BareReferences := by
  cases data with
  | list items =>
      obtain rfl := Except.ok.inj areParts
      refine bare.of_subset ?_
      rw [references]
      exact references_item_subset isPart
  | str text =>
      obtain rfl := Except.ok.inj areParts
      obtain ⟨c, _, rfl⟩ := List.mem_map.mp isPart
      exact bareReferences_str _
  | obj members =>
      obtain rfl := Except.ok.inj areParts
      obtain ⟨member, _, rfl⟩ := List.mem_map.mp isPart
      exact bareReferences_str _
  | _ => cases areParts

end BareReferences

end DesignTokens.Wire
