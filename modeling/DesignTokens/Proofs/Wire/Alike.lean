import DesignTokens.Proofs.Sorting
import DesignTokens.Wire.Writer

namespace DesignTokens.Wire

/-!
# Values up to the order of members

Two values are alike when they are the same but for the order in which the
members of their objects stand.  Truth values, whole numbers and doubles are
different kinds, and doubles are the same when they have the same shortest
text.  Every value is like the one with its members in alphabetical order.
-/

mutual

/-- The same value up to the order of the members of objects. -/
inductive Alike : Wire → Wire → Prop where
  | null :
      Alike .null .null
  | bool (truth : Bool) :
      Alike (.bool truth) (.bool truth)
  | int (whole : Int) :
      Alike (.int whole) (.int whole)
  | float
      {left right : Float}
      (sameText : Number.plainText left = Number.plainText right) :
      Alike (.float left) (.float right)
  | str (text : String) :
      Alike (.str text) (.str text)
  | list
      {left right : List Wire}
      (items : ItemsAlike left right) :
      Alike (.list left) (.list right)
  | obj
      {left right : List (String × Wire)}
      (members : MembersAlike left right) :
      Alike (.obj left) (.obj right)

/-- Lists of like items in the same places. -/
inductive ItemsAlike : List Wire → List Wire → Prop where
  | nil :
      ItemsAlike [] []
  | cons
      {left right : Wire}
      {lefts rights : List Wire}
      (first : Alike left right)
      (rest : ItemsAlike lefts rights) :
      ItemsAlike (left :: lefts) (right :: rights)

/--
Members of the same names with like values; members of different names
may change places.
-/
inductive MembersAlike : List (String × Wire) → List (String × Wire) → Prop where
  | nil :
      MembersAlike [] []
  | cons
      (name : String)
      {left right : Wire}
      {lefts rights : List (String × Wire)}
      (first : Alike left right)
      (rest : MembersAlike lefts rights) :
      MembersAlike ((name, left) :: lefts) ((name, right) :: rights)
  | swap
      {first second : String × Wire}
      (differ : first.1 ≠ second.1)
      (rest : List (String × Wire)) :
      MembersAlike (first :: second :: rest) (second :: first :: rest)
  | trans
      {left middle right : List (String × Wire)}
      (first : MembersAlike left middle)
      (second : MembersAlike middle right) :
      MembersAlike left right

end

mutual

/-- Every value is like itself. -/
theorem Alike.refl : (value : Wire) → value.Alike value
  | .null => .null
  | .bool truth => .bool truth
  | .int whole => .int whole
  | .float _ => .float rfl
  | .str text => .str text
  | .list items => .list (ItemsAlike.refl items)
  | .obj members => .obj (MembersAlike.refl members)

theorem ItemsAlike.refl : (items : List Wire) → ItemsAlike items items
  | [] => .nil
  | item :: rest => .cons (Alike.refl item) (ItemsAlike.refl rest)

theorem MembersAlike.refl : (members : List (String × Wire)) →
    MembersAlike members members
  | [] => .nil
  | (name, value) :: rest => .cons name (Alike.refl value) (MembersAlike.refl rest)

end

mutual

theorem Alike.symm {left right : Wire} : left.Alike right → right.Alike left
  | .null => .null
  | .bool truth => .bool truth
  | .int whole => .int whole
  | .float sameText => .float sameText.symm
  | .str text => .str text
  | .list items => .list items.symm
  | .obj members => .obj members.symm

theorem ItemsAlike.symm {left right : List Wire} :
    ItemsAlike left right → ItemsAlike right left
  | .nil => .nil
  | .cons first rest => .cons first.symm rest.symm

theorem MembersAlike.symm {left right : List (String × Wire)} :
    MembersAlike left right → MembersAlike right left
  | .nil => .nil
  | .cons name first rest => .cons name first.symm rest.symm
  | .swap differ rest => .swap differ.symm rest
  | .trans first second => .trans second.symm first.symm

end

mutual

theorem Alike.trans {left middle right : Wire} :
    left.Alike middle → middle.Alike right → left.Alike right
  | .null, second => second
  | .bool _, second => second
  | .int _, second => second
  | .str _, second => second
  | .float sameText, .float sameNext => .float (sameText.trans sameNext)
  | .list items, .list next => .list (items.trans next)
  | .obj members, .obj next => .obj (.trans members next)

theorem ItemsAlike.trans {left middle right : List Wire} :
    ItemsAlike left middle → ItemsAlike middle right → ItemsAlike left right
  | .nil, second => second
  | .cons first rest, .cons next others =>
      .cons (first.trans next) (rest.trans others)

end

/-- A member may be moved behind members of other names. -/
theorem MembersAlike.move
    {member : String × Wire}
    {front : List (String × Wire)}
    (otherNames : ∀ other ∈ front, other.1 ≠ member.1)
    (behind : List (String × Wire)) :
    MembersAlike (member :: (front ++ behind)) (front ++ member :: behind) := by
  induction front with
  | nil => exact .refl _
  | cons other front inductionHypothesis =>
      have otherName : member.1 ≠ other.1 := (otherNames other (by simp)).symm
      have moved :=
        inductionHypothesis (fun next isNext => otherNames next (by simp [isNext]))
      exact .trans (.swap otherName _) (.cons other.1 (.refl other.2) moved)

/-- Members that agree name by name are alike. -/
theorem MembersAlike.of_named_eq
    {left right : List (String × Wire)}
    (same : ∀ name, named name left = named name right) :
    MembersAlike left right := by
  induction left generalizing right with
  | nil =>
      cases right with
      | nil => exact .nil
      | cons member rest =>
          have ofMember := same member.1
          rw [named_cons, if_pos rfl] at ofMember
          cases ofMember
  | cons member rest inductionHypothesis =>
      obtain ⟨front, behind, rfl, otherNames, restSame⟩ :=
        exists_front_of_named_eq same
      exact .trans (.cons member.1 (.refl member.2) (inductionHypothesis restSame))
        (.move otherNames behind)

theorem sorted_obj
    (members : List (String × Wire)) :
    (Wire.obj members).sorted =
      .obj ((sortedMembers members).mergeSort byName) := by
  rw [sorted]
  rfl

mutual

/-- A value is like the one with its members in alphabetical order. -/
theorem alike_sorted : (value : Wire) → value.Alike value.sorted
  | .null => .null
  | .bool truth => .bool truth
  | .int whole => .int whole
  | .float _ => .float rfl
  | .str text => .str text
  | .list items => by
      rw [sorted]
      exact .list (alike_sortedItems items)
  | .obj members => by
      have ordered :
          MembersAlike (sortedMembers members)
            ((sortedMembers members).mergeSort byName) :=
        .of_named_eq (fun name => (named_mergeSort name _).symm)
      rw [sorted_obj]
      exact .obj (.trans (alike_sortedMembers members) ordered)

theorem alike_sortedItems : (items : List Wire) →
    ItemsAlike items (sortedItems items)
  | [] => .nil
  | item :: rest => .cons (alike_sorted item) (alike_sortedItems rest)

theorem alike_sortedMembers : (members : List (String × Wire)) →
    MembersAlike members (sortedMembers members)
  | [] => .nil
  | (name, value) :: rest =>
      .cons name (alike_sorted value) (alike_sortedMembers rest)

end

end DesignTokens.Wire
