import DesignTokens.Proofs.Theme.Paths
import DesignTokens.Theme.Tree

namespace DesignTokens

/-!
# What placements leave behind

Placing a token makes way for it: whatever stands at its path, above it or
below it is gone afterwards.  A run of placements therefore leaves exactly the
tokens whose paths no later placement overlaps, each of them once, and it never
leaves a group without a token.
-/

namespace TokenPath

/-- Whether one path is the other one or leads on to it. -/
def Overlaps (first second : TokenPath) : Prop :=
  first <+: second ∨ second <+: first

/-- Paths overlap when they start alike and overlap from there on. -/
theorem overlaps_cons_iff
    {first second : String}
    {rest tail : TokenPath} :
    Overlaps (first :: rest) (second :: tail) ↔
      first = second ∧ Overlaps rest tail := by
  unfold Overlaps
  rw [List.cons_prefix_cons, List.cons_prefix_cons]
  constructor
  · rintro (⟨same, leads⟩ | ⟨same, leads⟩)
    · exact ⟨same, .inl leads⟩
    · exact ⟨same.symm, .inr leads⟩
  · rintro ⟨rfl, leads | leads⟩
    · exact .inl ⟨rfl, leads⟩
    · exact .inr ⟨rfl, leads⟩

theorem overlaps_nil
    (path : TokenPath) :
    Overlaps [] path :=
  .inl List.nil_prefix

theorem overlaps_nil_right
    (path : TokenPath) :
    Overlaps path [] :=
  .inr List.nil_prefix

end TokenPath

/-- A token is placed at a path that no later placement overlaps. -/
def Entries.Survives (entries : Entries) (path : TokenPath) (token : Token) :
    Prop :=
  ∃ earlier later,
    entries = earlier ++ (path, token) :: later ∧
      ∀ entry ∈ later, ¬ TokenPath.Overlaps entry.1 path

theorem Entries.not_survives_nil
    (path : TokenPath)
    (token : Token) :
    ¬ Entries.Survives [] path token := by
  rintro ⟨earlier, later, shape, _⟩
  cases earlier <;> cases shape

/-- A placement survives as the first of a run, or among the rest of it. -/
theorem Entries.survives_cons_iff
    {first : TokenPath × Token}
    {rest : Entries}
    {path : TokenPath}
    {token : Token} :
    Entries.Survives (first :: rest) path token ↔
      (first = (path, token) ∧ ∀ entry ∈ rest, ¬ TokenPath.Overlaps entry.1 path) ∨
        Entries.Survives rest path token := by
  constructor
  · rintro ⟨earlier, later, shape, untouched⟩
    cases earlier with
    | nil =>
        obtain ⟨isFirst, rfl⟩ := List.cons.inj shape
        exact .inl ⟨isFirst, untouched⟩
    | cons _ between =>
        obtain ⟨_, restShape⟩ := List.cons.inj shape
        exact .inr ⟨between, later, restShape, untouched⟩
  · rintro (⟨rfl, untouched⟩ | ⟨earlier, later, rfl, untouched⟩)
    · exact ⟨[], rest, rfl, untouched⟩
    · exact ⟨first :: earlier, later, rfl, untouched⟩

/-- The last placement of a run survives. -/
theorem Entries.exists_survives
    {entries : Entries}
    (nonempty : entries ≠ []) :
    ∃ path token, Entries.Survives entries path token := by
  obtain ⟨earlier, last, rfl⟩ := entries.eq_nil_or_concat.resolve_left nonempty
  exact ⟨last.1, last.2, earlier, [], by simp, by simp⟩

namespace Node

mutual

/-- Every group at or below a node has a member. -/
def Occupied : Node → Prop
  | .token _ => True
  | .group members => members ≠ [] ∧ OccupiedBelow members

/-- Every group below members has a member. -/
def OccupiedBelow : List (String × Node) → Prop
  | [] => True
  | (_, child) :: rest => Occupied child ∧ OccupiedBelow rest

end

/-- Members are occupied when each of them is. -/
theorem occupiedBelow_iff
    {members : List (String × Node)} :
    OccupiedBelow members ↔ ∀ member ∈ members, member.2.Occupied := by
  induction members with
  | nil => simp [OccupiedBelow]
  | cons first rest inductionHypothesis =>
      rw [OccupiedBelow, inductionHypothesis, List.forall_mem_cons]

/-- A walk of an occupied node visits a token. -/
theorem Occupied.walk_ne_nil : (node : Node) → node.Occupied → node.walk ≠ []
  | .token _, _ => by simp [walk]
  | .group [], occupied => (occupied.1 rfl).elim
  | .group ((_, child) :: _), occupied => by
      have visited := Occupied.walk_ne_nil child occupied.2.1
      rw [walk, walkMembers]
      exact List.append_ne_nil_of_left_ne_nil (by simpa using visited) _

/-- What a path leads to in an occupied node is occupied. -/
theorem Occupied.of_get?
    {node found : Node}
    {path : TokenPath}
    (occupied : node.Occupied)
    (isThere : node.get? path = some found) :
    found.Occupied := by
  induction path generalizing node with
  | nil =>
      obtain rfl : node = found := Option.some.inj isThere
      exact occupied
  | cons name rest inductionHypothesis =>
      cases node with
      | token leaf => cases isThere
      | group members =>
          simp only [get?] at isThere
          split at isThere
          · rename_i child isChild
            have childOccupied :=
              occupiedBelow_iff.mp occupied.2 _ (mem_of_lookup? isChild)
            exact inductionHypothesis childOccupied isThere
          · cases isThere

end Node

namespace Group

/--
The names of a group and of all groups below it are distinct, and none
of these is empty.
-/
structure Tidy (group : Group) : Prop where
  distinct : Node.NamesDistinctBelow group
  occupied : Node.OccupiedBelow group

theorem Tidy.nil : Tidy [] :=
  ⟨trivial, trivial⟩

/-- What stands under a name of a tidy group is tidy. -/
theorem Tidy.childMembers
    {group : Group}
    (tidy : group.Tidy)
    (name : String) :
    (childMembers name group).Tidy := by
  unfold Group.childMembers
  split
  · rename_i members isThere
    have isMember := mem_of_lookup? isThere
    exact ⟨tidy.distinct.of_mem isMember,
      (Node.occupiedBelow_iff.mp tidy.occupied _ isMember).2⟩
  · exact .nil

/-- A group stays tidy when a tidy member is inserted. -/
theorem Tidy.insert
    {group : Group}
    {child : Node}
    (tidy : group.Tidy)
    (name : String)
    (childDistinct : child.NamesDistinct)
    (childOccupied : child.Occupied) :
    Tidy (Wire.insert name child group) where
  distinct := by
    refine Node.namesDistinctBelow_of_nodup
      (Wire.nodup_insert tidy.distinct.nodup name child) ?_
    intro member isMember
    rcases Wire.mem_of_mem_insert isMember with rfl | wasThere
    · exact childDistinct
    · exact tidy.distinct.of_mem wasThere
  occupied := by
    refine Node.occupiedBelow_iff.mpr fun member isMember => ?_
    rcases Wire.mem_of_mem_insert isMember with rfl | wasThere
    · exact childOccupied
    · exact Node.occupiedBelow_iff.mp tidy.occupied member wasThere

theorem insert_ne_nil
    (name : String)
    (child : Node)
    (group : Group) :
    Wire.insert name child group ≠ [] := by
  intro isEmpty
  have isThere := Wire.lookup?_insert name name child group
  rw [isEmpty, if_pos rfl] at isThere
  cases isThere

theorem place_ne_nil
    (group : Group)
    (token : Token)
    (first : String)
    (rest : TokenPath) :
    group.place token first rest ≠ [] := by
  cases rest <;> exact insert_ne_nil _ _ _

/-- Placing a token keeps a group tidy. -/
theorem Tidy.place
    {group : Group}
    (tidy : group.Tidy)
    (token : Token)
    (first : String)
    (rest : TokenPath) :
    (group.place token first rest).Tidy := by
  induction rest generalizing group first with
  | nil => exact tidy.insert first trivial trivial
  | cons next rest inductionHypothesis =>
      have below := inductionHypothesis (tidy.childMembers first) next
      exact tidy.insert first below.distinct ⟨place_ne_nil _ _ _ _, below.occupied⟩

/-- No token of a group stands at the empty path. -/
theorem nil_not_mem_walk
    (group : Group)
    (token : Token) :
    ([], token) ∉ group.walk :=
  fun visited => Node.ne_nil_of_mem_walkMembers visited rfl

/--
Inserting a member changes what a walk visits below its name, and nothing else.
-/
theorem mem_walk_insert_iff
    {group : Group}
    (distinct : (group.map Prod.fst).Nodup)
    {first name : String}
    {child : Node}
    {tail : TokenPath}
    {token : Token} :
    (name :: tail, token) ∈ walk (Wire.insert first child group) ↔
      if name = first then (tail, token) ∈ child.walk
      else (name :: tail, token) ∈ group.walk := by
  unfold walk
  rw [Node.mem_walkMembers_cons_iff (Wire.nodup_insert distinct first child),
    Node.mem_walkMembers_cons_iff distinct, Wire.lookup?_insert]
  split <;> simp

/-- Below a name, a walk visits what it visits in the group of that name. -/
theorem mem_walk_childMembers_iff
    {group : Group}
    (distinct : (group.map Prod.fst).Nodup)
    {name : String}
    {path : TokenPath}
    {token : Token}
    (nonempty : path ≠ []) :
    (path, token) ∈ (childMembers name group).walk ↔
      (name :: path, token) ∈ group.walk := by
  unfold walk
  rw [Node.mem_walkMembers_cons_iff distinct]
  unfold childMembers
  cases isThere : Wire.lookup? name group with
  | none => simp [Node.walkMembers]
  | some child =>
      cases child with
      | token leaf => simp [Node.walkMembers, Node.walk, nonempty]
      | group members => simp [Node.walk]

/--
After a placement there are the placed token and whatever was there at a path
that does not overlap the path of the placement.
-/
theorem mem_walk_place_iff
    {group : Group}
    (tidy : group.Tidy)
    {token found : Token}
    {first : String}
    {rest path : TokenPath} :
    (path, found) ∈ (group.place token first rest).walk ↔
      (path = first :: rest ∧ found = token) ∨
        ((path, found) ∈ group.walk ∧
          ¬ TokenPath.Overlaps (first :: rest) path) := by
  induction rest generalizing group first path with
  | nil =>
      cases path with
      | nil => simp [nil_not_mem_walk]
      | cons name tail =>
          rw [place, mem_walk_insert_iff tidy.distinct.nodup,
            TokenPath.overlaps_cons_iff]
          by_cases isFirst : name = first
          · simp [isFirst, Node.walk, TokenPath.overlaps_nil]
          · simp [isFirst, Ne.symm isFirst]
  | cons next rest inductionHypothesis =>
      cases path with
      | nil => simp [nil_not_mem_walk]
      | cons name tail =>
          rw [place, mem_walk_insert_iff tidy.distinct.nodup,
            TokenPath.overlaps_cons_iff]
          by_cases isFirst : name = first
          · subst isFirst
            have below := @inductionHypothesis _ (tidy.childMembers name) next tail
            rw [if_pos rfl, Node.walk, ← walk, below]
            by_cases isWhole : tail = []
            · -- A token that stood at the name itself had to give way to the group.
              simp [isWhole, nil_not_mem_walk, TokenPath.overlaps_nil_right]
            · simp [mem_walk_childMembers_iff tidy.distinct.nodup isWhole]
          · simp [isFirst, Ne.symm isFirst]

/--
After a run of placements there are the tokens that survive it and whatever was
there before at a path that none of the placements overlaps.
-/
theorem update_outcome
    {group : Group}
    {entries : Entries}
    (tidy : group.Tidy)
    (nonempty : ∀ entry ∈ entries, entry.1 ≠ []) :
    ∃ grown,
      group.update entries = ⟨grown, none⟩ ∧
        grown.Tidy ∧
        ∀ path token,
          (path, token) ∈ grown.walk ↔
            entries.Survives path token ∨
              ((path, token) ∈ group.walk ∧
                ∀ entry ∈ entries, ¬ TokenPath.Overlaps entry.1 path) := by
  induction entries generalizing group with
  | nil =>
      refine ⟨group, rfl, tidy, fun path token => ?_⟩
      simp [Entries.not_survives_nil]
  | cons entry rest inductionHypothesis =>
      obtain ⟨placedPath, placed⟩ := entry
      obtain ⟨pathNonempty, restNonempty⟩ := List.forall_mem_cons.mp nonempty
      obtain ⟨first, tail, rfl⟩ := List.exists_cons_of_ne_nil pathNonempty
      obtain ⟨grown, updated, grownTidy, visits⟩ :=
        inductionHypothesis (tidy.place placed first tail) restNonempty
      -- The first placement is followed by the rest; the rest meets what the first
      -- one leaves.
      refine ⟨grown, updated, grownTidy, fun path token => ?_⟩
      rw [visits, mem_walk_place_iff tidy, Entries.survives_cons_iff,
        List.forall_mem_cons, Prod.mk.injEq, eq_comm (a := path),
        eq_comm (a := token)]
      constructor
      · rintro (survives | ⟨isPlaced | ⟨wasThere, apart⟩, untouched⟩)
        · exact .inl (.inr survives)
        · exact .inl (.inl ⟨isPlaced, untouched⟩)
        · exact .inr ⟨wasThere, apart, untouched⟩
      · rintro ((⟨isPlaced, untouched⟩ | survives) | ⟨wasThere, apart, untouched⟩)
        · exact .inr ⟨.inl isPlaced, untouched⟩
        · exact .inl survives
        · exact .inr ⟨.inr ⟨wasThere, apart⟩, untouched⟩

/--
Building a tree from tokens at non-empty paths succeeds, and a walk of the tree
visits exactly the tokens that no later placement overlaps, every path once.
Every group below the root holds a token, so the tree is empty only when nothing
was placed.
-/
theorem build_keeps_surviving_placements
    (entries : Entries)
    (nonempty : ∀ entry ∈ entries, entry.1 ≠ []) :
    ∃ tree,
      Group.build entries = .ok tree ∧
        (∀ path token, (path, token) ∈ tree.walk ↔ entries.Survives path token) ∧
        (tree.walk.map Prod.fst).Nodup ∧
        (∀ path (members : Group),
          path ≠ [] → tree.get? path = some (.group members) → members.walk ≠ []) ∧
        (tree.isEmpty = true ↔ entries = []) := by
  obtain ⟨tree, updated, tidy, visits⟩ := update_outcome Tidy.nil nonempty
  have visitsSurvivors (path : TokenPath) (token : Token) :
      (path, token) ∈ tree.walk ↔ entries.Survives path token := by
    rw [visits]
    simp [walk, Node.walkMembers]
  refine ⟨tree, ?_, visitsSurvivors,
    Node.nodup_walkMembers tree tidy.distinct, ?_, ?_⟩
  · rw [build, updated]
  · intro path members below isThere
    have treeNonempty : tree ≠ [] := by
      rintro rfl
      obtain ⟨first, rest, rfl⟩ := List.exists_cons_of_ne_nil below
      cases isThere
    have rootOccupied : (Node.group tree).Occupied := ⟨treeNonempty, tidy.occupied⟩
    exact Node.Occupied.walk_ne_nil _ (rootOccupied.of_get? isThere)
  · rw [List.isEmpty_iff]
    constructor
    · rintro rfl
      cases entries with
      | nil => rfl
      | cons first rest =>
          obtain ⟨path, token, survives⟩ :=
            Entries.exists_survives (List.cons_ne_nil first rest)
          have visited := (visitsSurvivors path token).mpr survives
          cases visited
    · rintro rfl
      cases updated
      rfl

/-- A number token. -/
def count (value : Int) : Token :=
  .plain "number" (.plain (.int value))

/--
Tokens that have to give way: one to a group, the other to a token
at the same path.
-/
def crowded : Entries :=
  [(["a"], count 1), (["a", "b"], count 2), (["c"], count 3), (["c"], count 4)]

/-- The tokens that gave way are gone, the others are there. -/
theorem build_crowded :
    (∀ entry ∈ crowded, entry.1 ≠ []) ∧
      ∃ tree,
        Group.build crowded = .ok tree ∧
          (["a", "b"], count 2) ∈ tree.walk ∧
          (["c"], count 4) ∈ tree.walk ∧
          ∀ token, (["a"], token) ∉ tree.walk := by
  have nonempty : ∀ entry ∈ crowded, entry.1 ≠ [] := by simp [crowded]
  obtain ⟨tree, built, visits, _⟩ :=
    build_keeps_surviving_placements crowded nonempty
  refine ⟨nonempty, tree, built, (visits _ _).mpr ?_, (visits _ _).mpr ?_,
    fun token visited => ?_⟩
  · exact ⟨[(["a"], count 1)], [(["c"], count 3), (["c"], count 4)], rfl, by
      simp [TokenPath.Overlaps]⟩
  · exact ⟨[(["a"], count 1), (["a", "b"], count 2), (["c"], count 3)], [], rfl,
      by simp⟩
  · have survives := (visits _ _).mp visited
    simp [crowded, Entries.survives_cons_iff, Entries.not_survives_nil,
      TokenPath.overlaps_cons_iff, TokenPath.overlaps_nil_right] at survives

end Group

end DesignTokens
