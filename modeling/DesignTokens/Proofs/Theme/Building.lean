import DesignTokens.Proofs.Reading
import DesignTokens.Proofs.Theme.Placement

namespace DesignTokens

/-!
# Built collections

A tree can be built from entries whose paths are not empty, and a collection
from modes with such entries when the label of its default mode can serve as a
key.  Where all modes are told apart by their names, the collection has exactly
these modes, each with the tree of its own entries.

Building places nothing of its own: a tree that was built is tidy and holds
only tokens that were placed, each at its path.  So whatever is true of every
entry is true of every token of the collection, whichever of them had to give
way.  The modes of a collection are told apart by their names, the default mode
first.
-/

namespace Entries

/-- No entry has an empty path. -/
def Placeable (entries : Entries) : Prop :=
  ∀ entry ∈ entries, entry.1 ≠ []

end Entries

/-- Entries whose paths are not empty make up a tree. -/
theorem Group.succeeds_build
    {entries : Entries}
    (placeable : entries.Placeable) :
    Succeeds (Group.build entries) := by
  obtain ⟨tree, updated, _⟩ := Group.update_outcome Group.Tidy.nil placeable
  exact ⟨tree, by rw [Group.build, updated]⟩

/-- Two names are equal as values exactly when they are the same text. -/
@[simp] theorem Wire.same_str
    (left right : String) :
    Wire.same (.str left) (.str right) = (left == right) := by
  simp [Wire.same, Wire.sameLeaf]

namespace Collection

/-- The entries of a mode are among those that are listed. -/
theorem placeable_entriesOf
    {listed : List (Label × Entries)}
    (placeable : ∀ mode ∈ listed, mode.2.Placeable)
    (label : Label) :
    (entriesOf label listed).Placeable := by
  unfold entriesOf
  split
  · rename_i mode isFound
    exact placeable mode (List.mem_of_find?_eq_some isFound)
  · intro entry isEntry
    cases isEntry

/-- Modes whose entries can be placed make up a collection. -/
theorem succeeds_build
    {listed : List (Label × Entries)}
    (placeable : ∀ mode ∈ listed, mode.2.Placeable)
    {defaultMode : Label}
    (isKey : defaultMode.isKey = true)
    (name description : Wire) :
    Succeeds (build name listed defaultMode description) := by
  unfold build
  simp only [isKey, Bool.not_true, Bool.false_eq_true, if_false]
  rw [succeeds_bind_pure_iff, succeeds_mapM_iff]
  intro label _
  exact succeeds_bind_pure_iff.mpr
    (Group.succeeds_build (placeable_entriesOf placeable label))

/-- The modes of some names with their entries. -/
def named (modes : List (String × Entries)) : List (Label × Entries) :=
  modes.map (fun mode => (.str mode.1, mode.2))

/-- Among distinct names, the entries of a mode are those listed with its name. -/
theorem entriesOf_named
    {modes : List (String × Entries)}
    (distinct : (modes.map Prod.fst).Nodup)
    {mode : String × Entries}
    (isMode : mode ∈ modes) :
    entriesOf (.str mode.1) (named modes) = mode.2 := by
  induction modes with
  | nil => cases isMode
  | cons first rest inductionHypothesis =>
      obtain ⟨isNew, restDistinct⟩ := List.nodup_cons.mp distinct
      rcases List.mem_cons.mp isMode with rfl | inRest
      · simp [entriesOf, named]
      · have otherName : first.1 ≠ mode.1 := by
          intro same
          exact isNew (same ▸ List.mem_map_of_mem inRest)
        have found := inductionHypothesis restDistinct inRest
        simpa [entriesOf, named, otherName] using found

/--
Among distinct names, all but the first are left when its label is taken away.
-/
theorem labels_named_without_first
    {first : String × Entries}
    {others : List (String × Entries)}
    (distinct : ((first :: others).map Prod.fst).Nodup) :
    ((named (first :: others)).map Prod.fst).filter
        (fun label => !label.same (.str first.1)) =
      others.map (fun mode => .str mode.1) := by
  have isNew : first.1 ∉ others.map Prod.fst := (List.nodup_cons.mp distinct).1
  have labels :
      (named (first :: others)).map Prod.fst =
        .str first.1 :: others.map (fun mode => .str mode.1) := by
    simp [named]
  rw [labels, List.filter_cons_of_neg (by simp), List.filter_eq_self]
  intro label isLabel
  obtain ⟨mode, isMode, rfl⟩ := List.mem_map.mp isLabel
  have otherName : mode.1 ≠ first.1 :=
    fun same => isNew (same ▸ List.mem_map_of_mem isMode)
  simpa using otherName

/--
A collection of distinct names, the default first, has these modes,
each with its tree.
-/
theorem modes_of_build
    {first : String × Entries}
    {others : List (String × Entries)}
    (distinct : ((first :: others).map Prod.fst).Nodup)
    {name description : Wire}
    {collection : Collection}
    (isBuilt : build name (named (first :: others)) (.str first.1) description =
      .ok collection) :
    collection.defaultMode = .str first.1 ∧
      collection.modes = (first :: others).map (fun mode => .str mode.1) ∧
      collection.modes = collection.tokens.map Prod.fst ∧
      (first :: others).mapM (fun mode => do
          let group ← Group.build mode.2
          return ((.str mode.1 : Label), group)) =
        .ok collection.tokens := by
  have sameTrees :
      (first :: others).mapM (fun mode => do
          let group ← Group.build
            (entriesOf (.str mode.1) (named (first :: others)))
          return ((.str mode.1 : Label), group)) =
        (first :: others).mapM (fun mode => do
          let group ← Group.build mode.2
          return ((.str mode.1 : Label), group)) :=
    mapM_congr fun mode isMode => by rw [entriesOf_named distinct isMode]
  have modesListed :
      ((.str first.1 : Label) :: others.map (fun mode => .str mode.1)) =
        (first :: others).map (fun mode => .str mode.1) :=
    rfl
  unfold build at isBuilt
  simp only [Wire.isKey, Bool.not_true, Bool.false_eq_true, if_false,
    labels_named_without_first distinct, modesListed, List.mapM_map] at isBuilt
  obtain ⟨trees, areTrees, isCollection⟩ := bind_eq_ok_iff.mp isBuilt
  obtain rfl := pure_eq_ok_iff.mp isCollection
  have labelled :
      trees.map Prod.fst = (first :: others).map (fun mode => .str mode.1) := by
    refine map_of_mapM areTrees fun mode tree isTree => ?_
    obtain ⟨group, _, isPair⟩ := bind_eq_ok_iff.mp isTree
    obtain rfl := pure_eq_ok_iff.mp isPair
    rfl
  exact ⟨rfl, rfl, labelled.symm, sameTrees ▸ areTrees⟩

end Collection

/-! What built collections hold. -/

theorem Entries.Survives.mem
    {entries : Entries}
    {path : TokenPath}
    {token : Token}
    (survives : entries.Survives path token) :
    (path, token) ∈ entries := by
  obtain ⟨earlier, later, rfl, _⟩ := survives
  simp

namespace Group

/-- Entries that were all placed have paths. -/
theorem placeable_of_update
    {group grown : Group}
    {entries : Entries}
    (updated : group.update entries = ⟨grown, none⟩) :
    entries.Placeable := by
  induction entries generalizing group with
  | nil =>
      intro entry isEntry
      cases isEntry
  | cons first rest inductionHypothesis =>
      rw [update] at updated
      split at updated
      · rename_i next isSet
        refine List.forall_mem_cons.mpr ⟨?_, inductionHypothesis updated⟩
        obtain ⟨path, token⟩ := first
        rintro rfl
        cases isSet
      · cases updated

/-- A tree that was built is tidy and holds only entries that were placed. -/
theorem contents_of_build
    {entries : Entries}
    {tree : Group}
    (isBuilt : build entries = .ok tree) :
    tree.Tidy ∧ ∀ entry ∈ tree.walk, entry ∈ entries := by
  unfold build at isBuilt
  split at isBuilt
  · rename_i grown updated
    obtain rfl := Except.ok.inj isBuilt
    obtain ⟨outcome, sameUpdate, tidy, visits⟩ :=
      update_outcome Tidy.nil (placeable_of_update updated)
    obtain rfl : grown = outcome :=
      congrArg Placed.group (updated.symm.trans sameUpdate)
    refine ⟨tidy, fun entry isEntry => ?_⟩
    rcases (visits entry.1 entry.2).mp isEntry with survives | ⟨wasThere, _⟩
    · exact survives.mem
    · cases wasThere
  · cases isBuilt

end Group

namespace Collection

/--
The modes have distinct names, the default mode is the first of them, and the
trees belong to the modes, in the same order.
-/
structure ModesInOrder (collection : Collection) : Prop where
  named : ∃ names : List String, names.Nodup ∧ collection.modes = names.map Wire.str
  default : collection.modes.head? = some collection.defaultMode
  labels : collection.tokens.map Prod.fst = collection.modes

/--
A collection with modes in order and tidy trees, all of whose tokens
fit their paths.
-/
structure Orderly (collection : Collection) (Fits : TokenPath → Token → Prop) : Prop
    extends collection.ModesInOrder where
  tidy : ∀ tree ∈ collection.tokens, tree.2.Tidy
  fits : ∀ tree ∈ collection.tokens, ∀ entry ∈ tree.2.walk, Fits entry.1 entry.2

/-- Without the name of the default mode, the names of the other modes are left. -/
theorem labels_named_filter
    (modes : List (String × Entries))
    (defaultMode : String) :
    ((named modes).map Prod.fst).filter
      (fun label => !label.same (.str defaultMode)) =
      ((modes.map Prod.fst).filter (fun name => name != defaultMode)).map
        Wire.str := by
  rw [named, List.map_map, List.filter_map, List.filter_map, List.map_map]
  simp [Function.comp_def, bne]

/--
The entries of a mode that is looked up are those of a listed mode,
or there are none.
-/
theorem mem_of_mem_entriesOf
    {label : Label}
    {listed : List (Label × Entries)}
    {entry : TokenPath × Token}
    (isEntry : entry ∈ entriesOf label listed) :
    ∃ mode ∈ listed, entry ∈ mode.2 := by
  unfold entriesOf at isEntry
  split at isEntry
  · rename_i mode isFound
    exact ⟨mode, List.mem_of_find?_eq_some isFound, isEntry⟩
  · cases isEntry

/--
Every token of a collection that was built is one of the entries
it was built from.
-/
theorem exists_mode_of_build
    {name description : Wire}
    {listed : List (Label × Entries)}
    {defaultMode : Label}
    {collection : Collection}
    (isBuilt : build name listed defaultMode description = .ok collection)
    {tree : Label × Group}
    (isTree : tree ∈ collection.tokens)
    {entry : TokenPath × Token}
    (isEntry : entry ∈ tree.2.walk) :
    ∃ mode ∈ listed, entry ∈ mode.2 := by
  unfold build at isBuilt
  split at isBuilt
  · cases isBuilt
  · obtain ⟨trees, areTrees, isCollection⟩ := bind_eq_ok_iff.mp isBuilt
    obtain rfl := pure_eq_ok_iff.mp isCollection
    obtain ⟨label, _, isRead⟩ := exists_of_mem_mapM areTrees isTree
    obtain ⟨group, isGroup, isPair⟩ := bind_eq_ok_iff.mp isRead
    obtain rfl := pure_eq_ok_iff.mp isPair
    exact mem_of_mem_entriesOf ((Group.contents_of_build isGroup).2 entry isEntry)

/-- A collection that was built keeps its name and description, and is orderly. -/
theorem orderly_of_build
    {modes : List (String × Entries)}
    (distinct : (modes.map Prod.fst).Nodup)
    {Fits : TokenPath → Token → Prop}
    (fitting : ∀ mode ∈ modes, ∀ entry ∈ mode.2, Fits entry.1 entry.2)
    {name description : Wire}
    {defaultMode : String}
    {collection : Collection}
    (isBuilt : build name (named modes) (.str defaultMode) description =
      .ok collection) :
    collection.description = description ∧ collection.Orderly Fits := by
  unfold build at isBuilt
  simp only [Wire.isKey, Bool.not_true, Bool.false_eq_true, if_false,
    labels_named_filter]
    at isBuilt
  obtain ⟨trees, areTrees, isCollection⟩ := bind_eq_ok_iff.mp isBuilt
  obtain rfl := pure_eq_ok_iff.mp isCollection
  have labelled :
      trees.map Prod.fst =
        (Wire.str defaultMode ::
          ((modes.map Prod.fst).filter (fun name => name != defaultMode)).map
            Wire.str).map id := by
    refine map_of_mapM areTrees fun label tree isTree => ?_
    obtain ⟨group, _, isPair⟩ := bind_eq_ok_iff.mp isTree
    obtain rfl := pure_eq_ok_iff.mp isPair
    rfl
  have contents :
      ∀ tree ∈ trees,
        ∃ label, Group.build (entriesOf label (named modes)) = .ok tree.2 := by
    intro tree isTree
    obtain ⟨label, _, isRead⟩ := exists_of_mem_mapM areTrees isTree
    obtain ⟨group, isGroup, isPair⟩ := bind_eq_ok_iff.mp isRead
    obtain rfl := pure_eq_ok_iff.mp isPair
    exact ⟨label, isGroup⟩
  refine ⟨rfl, ⟨⟨?_, rfl, by simpa using labelled⟩, ?_, ?_⟩⟩
  · refine ⟨defaultMode ::
      (modes.map Prod.fst).filter (fun name => name != defaultMode), ?_, rfl⟩
    exact List.nodup_cons.mpr ⟨by simp, distinct.filter _⟩
  · intro tree isTree
    obtain ⟨label, isGroup⟩ := contents tree isTree
    exact (Group.contents_of_build isGroup).1
  · intro tree isTree entry visited
    obtain ⟨label, isGroup⟩ := contents tree isTree
    have wasPlaced := (Group.contents_of_build isGroup).2 entry visited
    obtain ⟨mode, isMode, isEntry⟩ := mem_of_mem_entriesOf wasPlaced
    obtain ⟨original, isOriginal, rfl⟩ := List.mem_map.mp isMode
    exact fitting original isOriginal entry isEntry

end Collection

/-- Every token of a theme of orderly collections fits its path. -/
theorem Theme.fits_of_mem_walk
    {theme : Theme}
    {Fits : TokenPath → Token → Prop}
    (orderly : ∀ collection ∈ theme.collections, collection.Orderly Fits)
    {located : Located}
    (isLocated : located ∈ theme.walk) :
    Fits located.path located.token := by
  obtain ⟨isCollection, tree, isTree, visited⟩ := Theme.mem_walk_iff.mp isLocated
  exact (orderly _ isCollection).fits _ isTree _ visited

end DesignTokens
