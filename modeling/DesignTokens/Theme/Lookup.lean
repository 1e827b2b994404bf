import DesignTokens.Theme.Basic

namespace DesignTokens

/-!
# Finding tokens

A path is looked up in every collection: first in the tree of the requested
mode, or of the default mode where a collection does not have that mode, and
then in the trees of all other modes.  Whatever is found stands in the theme
under exactly that path.
-/

open DesignTokens.Text

/-- Joining the pieces of a text gives the text back. -/
theorem intercalate_splitOn (separator : Char) (chars : List Char) :
    [separator].intercalate (splitOn separator chars) = chars := by
  induction chars with
  | nil => simp [splitOn]
  | cons c rest inductionHypothesis =>
      unfold splitOn
      split
      · rename_i isSeparator
        cases pieces : splitOn separator rest with
        | nil => exact absurd pieces (splitOn_ne_nil separator rest)
        | cons piece more => simp_all
      · cases pieces : splitOn separator rest with
        | nil => simp_all
        | cons piece more =>
            cases more <;> simp_all

/-- The key of the segments of a text is the text. -/
theorem key_splitText (text : String) :
    TokenPath.key (splitText '.' text) = text := by
  apply String.toList_inj.mp
  have joined := intercalate_splitOn '.' text.toList
  simpa [TokenPath.key, joinWith, splitText, String.toList_intercalate,
    Function.comp_def] using joined

/-- A value that is looked up stands in the list under its name. -/
theorem mem_of_lookup?
    {α : Type}
    {name : String}
    {members : List (String × α)}
    {value : α}
    (found : Wire.lookup? name members = some value) : (name, value) ∈ members := by
  induction members with
  | nil => simp [Wire.lookup?] at found
  | cons member rest inductionHypothesis =>
      unfold Wire.lookup? at found
      split at found
      · rename_i sameName
        cases member
        simp_all
      · exact List.mem_cons_of_mem _ (inductionHypothesis found)

namespace Node

/-- Walking members visits what walking one of them visits, below its name. -/
theorem mem_walkMembers
    {name : String}
    {child : Node}
    {members : List (String × Node)}
    {path : TokenPath}
    {token : Token}
    (isMember : (name, child) ∈ members)
    (visited : (path, token) ∈ child.walk) :
    (name :: path, token) ∈ walkMembers members := by
  induction members with
  | nil => simp at isMember
  | cons member rest inductionHypothesis =>
      cases member with
      | mk firstName firstChild =>
          unfold walkMembers
          rcases List.mem_cons.mp isMember with isFirst | isLater
          · cases isFirst
            exact List.mem_append_left _
              (List.mem_map.mpr ⟨(path, token), visited, rfl⟩)
          · exact List.mem_append_right _ (inductionHypothesis isLater)

/-- A token that a path leads to is visited under that path. -/
theorem mem_walk_of_get? {node : Node} {path : TokenPath} {found : Token}
    (isThere : node.get? path = some (.token found)) :
    (path, found) ∈ node.walk := by
  induction path generalizing node with
  | nil =>
      simp only [get?, Option.some.injEq] at isThere
      subst isThere
      simp [walk]
  | cons segment rest inductionHypothesis =>
      cases node with
      | token leaf => simp [get?] at isThere
      | group members =>
          simp only [get?] at isThere
          split at isThere
          · rename_i child isChild
            simp only [walk]
            exact mem_walkMembers (mem_of_lookup? isChild)
              (inductionHypothesis isThere)
          · simp at isThere

end Node

/-- A token found under a key is visited under the segments of the key. -/
theorem Group.mem_walk_of_token? {group : Group} {key : String} {found : Token}
    (isThere : Group.token? group key = some found) :
    (splitText '.' key, found) ∈ Group.walk group := by
  unfold Group.token? Group.getKey? Group.get? at isThere
  obtain ⟨node, reached, isToken⟩ := Option.bind_eq_some_iff.mp isThere
  cases node with
  | group members => cases isToken
  | token leaf =>
      cases isToken
      exact Node.mem_walk_of_get? reached

namespace Collection

/-- The tree in which a collection is searched first for a mode. -/
def preferredTree (collection : Collection) (mode : Label) : Group :=
  collection.modeTokens (if collection.hasMode mode then mode else .null)

/-- A tree of a mode is one of the trees of the collection. -/
theorem mem_of_tree? {collection : Collection} {label : Label} {tree : Group}
    (isThere : collection.tree? label = some tree) :
    ∃ mode, (mode, tree) ∈ collection.tokens := by
  unfold tree? at isThere
  obtain ⟨found, isFound, sameTree⟩ := Option.map_eq_some_iff.mp isThere
  have isMember := List.mem_of_find?_eq_some isFound
  exact ⟨found.1, by rw [← sameTree]; exact isMember⟩

/--
What the tree that is searched first holds is held by one of the trees
of the collection.
-/
theorem exists_of_mem_preferredTree {collection : Collection} {mode : Label}
    {entry : TokenPath × Token}
    (isEntry : entry ∈ Group.walk (collection.preferredTree mode)) :
    ∃ label tree, (label, tree) ∈ collection.tokens ∧ entry ∈ Group.walk tree := by
  unfold preferredTree modeTokens at isEntry
  generalize (if Wire.isTruthy _ then _ else _ : Label) = wanted at isEntry
  cases isTree : collection.tree? wanted with
  | none => simp [isTree, Group.walk, Node.walkMembers] at isEntry
  | some tree =>
      obtain ⟨label, isMember⟩ := mem_of_tree? isTree
      exact ⟨label, tree, isMember, by simpa [isTree] using isEntry⟩

end Collection

namespace Theme

/-- The keys under which tokens stand, mode by mode. -/
def keys (theme : Theme) : List String :=
  theme.walk.map (fun located => TokenPath.key located.path)

/-- The token of a key in the trees that are searched first. -/
def findPreferred? (theme : Theme) (key : String) (mode : Label) : Option Token :=
  theme.collections.findSome? (fun collection =>
    Group.token? (collection.preferredTree mode) key)

/-- The token of a key in any tree. -/
def findAnywhere? (theme : Theme) (key : String) : Option Token :=
  theme.collections.findSome? (fun collection =>
    collection.tokens.findSome? (fun tree => Group.token? tree.2 key))

/--
The token of a key, in the requested mode if there is one; null
requests no mode.
-/
def find? (theme : Theme) (key : String) (mode : Label) : Option Token :=
  (theme.findPreferred? key mode).or (theme.findAnywhere? key)

/-- What a walk of a theme visits is what the walks of its trees visit. -/
theorem mem_walk_iff {theme : Theme} {located : Located} :
    located ∈ theme.walk ↔
      located.collection ∈ theme.collections ∧
        ∃ tree,
          (located.mode, tree) ∈ located.collection.tokens ∧
            (located.path, located.token) ∈ Group.walk tree := by
  simp only [walk, List.mem_flatMap, List.mem_map]
  constructor
  · rintro ⟨collection, isCollection, ⟨mode, tree⟩, isTree, entry, isEntry, rfl⟩
    exact ⟨isCollection, tree, isTree, isEntry⟩
  · rintro ⟨isCollection, tree, isTree, isEntry⟩
    exact ⟨located.collection, isCollection, (located.mode, tree), isTree, _,
      isEntry, rfl⟩

/-- What is found stands in the theme at the segments of its key. -/
theorem exists_located_of_find?
    {theme : Theme}
    {key : String}
    {mode : Label}
    {found : Token}
    (isThere : theme.find? key mode = some found) :
    ∃ located ∈ theme.walk, located.path = splitText '.' key ∧
      located.token = found := by
  unfold find? at isThere
  rcases Option.or_eq_some_iff.mp isThere with preferred | ⟨_, anywhere⟩
  · obtain ⟨collection, isCollection, inTree⟩ :=
      List.exists_of_findSome?_eq_some preferred
    obtain ⟨label, tree, isTree, visited⟩ :=
      Collection.exists_of_mem_preferredTree (Group.mem_walk_of_token? inTree)
    exact ⟨⟨collection, label, _, found⟩,
      mem_walk_iff.mpr ⟨isCollection, tree, isTree, visited⟩, rfl, rfl⟩
  · obtain ⟨collection, isCollection, inCollection⟩ :=
      List.exists_of_findSome?_eq_some anywhere
    obtain ⟨entry, isTree, inTree⟩ := List.exists_of_findSome?_eq_some inCollection
    exact ⟨⟨collection, entry.1, _, found⟩,
      mem_walk_iff.mpr
        ⟨isCollection, entry.2, isTree, Group.mem_walk_of_token? inTree⟩, rfl, rfl⟩

/-- The key of what is found is a key of the theme. -/
theorem mem_keys_of_find?
    {theme : Theme}
    {key : String}
    {mode : Label}
    {found : Token}
    (isThere : theme.find? key mode = some found) : key ∈ theme.keys := by
  obtain ⟨located, isLocated, isPath, _⟩ := exists_located_of_find? isThere
  refine List.mem_map.mpr ⟨located, isLocated, ?_⟩
  rw [isPath, key_splitText]

end Theme

end DesignTokens
