import DesignTokens.Proofs.Text.Search
import DesignTokens.Proofs.Wire.Members
import DesignTokens.Theme.Lookup
import Mathlib.Data.Set.Card

namespace DesignTokens

/-!
# Paths of a tree

A tree is walked, asked for the member at a path, asked for the member at a key,
and its tokens are counted.  Where the names of every group are distinct, all
four speak of the same tokens: a walk visits a token under a path exactly when
the path leads to it, and it visits every path once.  A key stands for its path
unless a segment of the path holds a dot.
-/

namespace Node

mutual

/-- The names of every group of a tree are distinct. -/
def NamesDistinct : Node → Prop
  | .token _ => True
  | .group members => NamesDistinctBelow members

/--
The names of members are distinct, and so are those of every group below them.
-/
def NamesDistinctBelow : List (String × Node) → Prop
  | [] => True
  | (name, child) :: rest =>
      name ∉ rest.map Prod.fst ∧ NamesDistinct child ∧ NamesDistinctBelow rest

end

/-- The members of a group with distinct names have distinct names. -/
theorem NamesDistinctBelow.nodup
    {members : List (String × Node)}
    (distinct : NamesDistinctBelow members) :
    (members.map Prod.fst).Nodup := by
  induction members with
  | nil => simp
  | cons member rest inductionHypothesis =>
      obtain ⟨isNew, _, restDistinct⟩ := distinct
      exact List.nodup_cons.mpr ⟨isNew, inductionHypothesis restDistinct⟩

/-- Below members with distinct names, names are distinct too. -/
theorem NamesDistinctBelow.of_mem
    {members : List (String × Node)}
    {member : String × Node}
    (distinct : NamesDistinctBelow members)
    (isMember : member ∈ members) :
    member.2.NamesDistinct := by
  induction members with
  | nil => cases isMember
  | cons first rest inductionHypothesis =>
      obtain ⟨_, firstDistinct, restDistinct⟩ := distinct
      rcases List.mem_cons.mp isMember with rfl | inRest
      · exact firstDistinct
      · exact inductionHypothesis restDistinct inRest

/--
Distinct names with distinct names below them make up a tree of distinct names.
-/
theorem namesDistinctBelow_of_nodup
    {members : List (String × Node)}
    (distinct : (members.map Prod.fst).Nodup)
    (below : ∀ member ∈ members, member.2.NamesDistinct) :
    NamesDistinctBelow members := by
  induction members with
  | nil => trivial
  | cons first rest inductionHypothesis =>
      obtain ⟨isNew, restDistinct⟩ := List.nodup_cons.mp distinct
      exact ⟨isNew, below first (by simp), inductionHypothesis restDistinct
        (fun member isMember => below member (List.mem_cons_of_mem _ isMember))⟩

/-- A walk of members visits what a walk of one of them visits, below its name. -/
theorem exists_of_mem_walkMembers
    {members : List (String × Node)}
    {path : TokenPath}
    {token : Token}
    (visited : (path, token) ∈ walkMembers members) :
    ∃ name child rest,
      (name, child) ∈ members ∧ path = name :: rest ∧
        (rest, token) ∈ child.walk := by
  induction members with
  | nil => cases visited
  | cons member rest inductionHypothesis =>
      obtain ⟨name, child⟩ := member
      rw [walkMembers] at visited
      rcases List.mem_append.mp visited with inChild | inRest
      · obtain ⟨entry, isEntry, same⟩ := List.mem_map.mp inChild
        cases same
        exact ⟨name, child, entry.1, by simp, rfl, isEntry⟩
      · obtain ⟨name, child, tail, isMember, isPath, inChild⟩ :=
          inductionHypothesis inRest
        exact ⟨name, child, tail, List.mem_cons_of_mem _ isMember, isPath, inChild⟩

/-- No token of members stands at the empty path. -/
theorem ne_nil_of_mem_walkMembers
    {members : List (String × Node)}
    {entry : TokenPath × Token}
    (visited : entry ∈ walkMembers members) :
    entry.1 ≠ [] := by
  obtain ⟨name, _, rest, _, isPath, _⟩ := exists_of_mem_walkMembers visited
  rw [isPath]
  exact List.cons_ne_nil name rest

/--
Among distinct names, what a walk visits below a name stands
below its one member.
-/
theorem mem_walkMembers_cons_iff
    {members : List (String × Node)}
    (distinct : (members.map Prod.fst).Nodup)
    {name : String}
    {rest : TokenPath}
    {token : Token} :
    (name :: rest, token) ∈ walkMembers members ↔
      ∃ child, Wire.lookup? name members = some child ∧
        (rest, token) ∈ child.walk := by
  constructor
  · intro visited
    obtain ⟨found, child, tail, isMember, isPath, inChild⟩ :=
      exists_of_mem_walkMembers visited
    cases isPath
    exact ⟨child, Wire.lookup?_of_mem distinct isMember, inChild⟩
  · rintro ⟨child, isThere, inChild⟩
    exact mem_walkMembers (mem_of_lookup? isThere) inChild

/-- A walk visits a token under a path exactly when the path leads to it. -/
theorem mem_walk_iff_get?
    {node : Node}
    (distinct : node.NamesDistinct)
    {path : TokenPath}
    {token : Token} :
    (path, token) ∈ node.walk ↔ node.get? path = some (.token token) := by
  refine ⟨fun visited => ?_, mem_walk_of_get?⟩
  induction path generalizing node with
  | nil =>
      cases node with
      | token leaf =>
          obtain rfl : token = leaf := by simpa [walk] using visited
          rfl
      | group members => exact (ne_nil_of_mem_walkMembers visited rfl).elim
  | cons name rest inductionHypothesis =>
      cases node with
      | token leaf => simp [walk] at visited
      | group members =>
          obtain ⟨child, isThere, inChild⟩ :=
            (mem_walkMembers_cons_iff distinct.nodup).mp visited
          have childDistinct := distinct.of_mem (mem_of_lookup? isThere)
          simp only [get?, isThere]
          exact inductionHypothesis childDistinct inChild

mutual

/-- A walk visits every path once. -/
theorem nodup_walk
    (node : Node)
    (distinct : node.NamesDistinct) :
    (node.walk.map Prod.fst).Nodup := by
  match node with
  | .token leaf => simp [walk]
  | .group members => exact nodup_walkMembers members distinct

/-- A walk of members visits every path once. -/
theorem nodup_walkMembers
    (members : List (String × Node))
    (distinct : NamesDistinctBelow members) :
    ((walkMembers members).map Prod.fst).Nodup := by
  match members with
  | [] => simp [walkMembers]
  | (name, child) :: rest =>
      obtain ⟨isNew, childDistinct, restDistinct⟩ := distinct
      have childNodup := nodup_walk child childDistinct
      rw [walkMembers, List.map_append, List.nodup_append]
      refine ⟨?_, nodup_walkMembers rest restDistinct, ?_⟩
      · have below : ((child.walk.map Prod.fst).map (name :: ·)).Nodup :=
          List.Pairwise.map (name :: ·)
            (fun _ _ differs same => differs (List.cons.inj same).2) childNodup
        simpa [Function.comp_def] using below
      · -- A path below the first member starts with its name, which no later member
        -- has.
        intro first inChild second inRest same
        obtain ⟨entry, isEntry, rfl⟩ := List.mem_map.mp inChild
        obtain ⟨visit, _, rfl⟩ := List.mem_map.mp isEntry
        obtain ⟨later, isLater, rfl⟩ := List.mem_map.mp inRest
        obtain ⟨other, _, _, isMember, isPath, _⟩ :=
          exists_of_mem_walkMembers isLater
        rw [isPath] at same
        obtain ⟨rfl, _⟩ := List.cons.inj same
        exact isNew (List.mem_map_of_mem isMember)

end

end Node

open DesignTokens.Text

/-- Splitting at a separator is the library's splitting. -/
theorem Text.splitOn_eq_listSplitOn
    (separator : Char)
    (chars : List Char) :
    splitOn separator chars = chars.splitOn separator := by
  induction chars with
  | nil => rfl
  | cons c rest inductionHypothesis =>
      rw [List.splitOn_cons_eq_if_modifyHead, ← inductionHypothesis, splitOn]
      by_cases isSeparator : c = separator
      · simp [isSeparator]
      · cases pieces : splitOn separator rest with
        | nil => exact (splitOn_ne_nil separator rest pieces).elim
        | cons piece more => simp [isSeparator]

namespace TokenPath

/-- No segment of a path holds a dot. -/
def Dotless (path : TokenPath) : Prop :=
  ∀ segment ∈ path, '.' ∉ segment.toList

/-- The segments of a text hold no dot. -/
theorem dotless_splitText
    (text : String) :
    Dotless (splitText '.' text) := by
  intro segment isSegment
  obtain ⟨piece, isPiece, rfl⟩ := List.mem_map.mp isSegment
  rw [String.toList_ofList]
  exact separator_not_mem_of_mem_splitOn isPiece

/-- Splitting the key of a path without dots of its own gives the path back. -/
theorem splitText_key
    {path : TokenPath}
    (isNotEmpty : path ≠ [])
    (dotless : path.Dotless) :
    splitText '.' path.key = path := by
  have pieces : (['.'].intercalate (path.map String.toList)).splitOn '.' =
      path.map String.toList := by
    refine List.splitOn_intercalate '.' ?_ (by simpa using isNotEmpty)
    intro segment isSegment
    obtain ⟨text, isText, rfl⟩ := List.mem_map.mp isSegment
    exact dotless text isText
  rw [splitText, splitOn_eq_listSplitOn, key, joinWith, String.toList_intercalate]
  simpa [Function.comp_def] using congrArg (List.map String.ofList) pieces

/-- A path is found by its key exactly when it has no dots of its own. -/
theorem splitText_eq_iff
    {path : TokenPath}
    (isNotEmpty : path ≠ [])
    {text : String} :
    splitText '.' text = path ↔ path.key = text ∧ path.Dotless := by
  constructor
  · rintro rfl
    exact ⟨key_splitText text, dotless_splitText text⟩
  · rintro ⟨rfl, dotless⟩
    exact splitText_key isNotEmpty dotless

end TokenPath

namespace Group

/-- The paths that lead to a token. -/
def tokenPaths (group : Group) : Set TokenPath :=
  {path | ∃ token, group.get? path = some (.token token)}

section Distinct

variable {group : Group}

/--
Walking a group visits a token under a path exactly when the path leads to it.
-/
theorem mem_walk_iff_get?
    (distinct : Node.NamesDistinctBelow group)
    {path : TokenPath}
    {token : Token} :
    (path, token) ∈ group.walk ↔ group.get? path = some (.token token) := by
  have distinctNode : (Node.group group).NamesDistinct := distinct
  exact Node.mem_walk_iff_get? distinctNode

/-- The paths of a walk are those that lead to a token. -/
theorem mem_walk_paths_iff
    (distinct : Node.NamesDistinctBelow group)
    {path : TokenPath} :
    path ∈ group.walk.map Prod.fst ↔ path ∈ group.tokenPaths := by
  rw [List.mem_map]
  constructor
  · rintro ⟨⟨path, token⟩, visited, rfl⟩
    exact ⟨token, (mem_walk_iff_get? distinct).mp visited⟩
  · rintro ⟨token, isThere⟩
    exact ⟨(path, token), (mem_walk_iff_get? distinct).mpr isThere, rfl⟩

/-- As many paths lead to a token as the group has tokens. -/
theorem encard_tokenPaths
    (distinct : Node.NamesDistinctBelow group) :
    group.tokenPaths.encard = group.tokenCount := by
  have once : (group.walk.map Prod.fst).Nodup :=
    Node.nodup_walkMembers group distinct
  have sameSet : group.tokenPaths = ↑(group.walk.map Prod.fst).toFinset := by
    ext path
    rw [← mem_walk_paths_iff distinct, Finset.mem_coe, List.mem_toFinset]
  rw [sameSet, Set.encard_coe_eq_coe_finsetCard, List.toFinset_card_of_nodup once,
    List.length_map, tokenCount]

end Distinct

/-- A path without dots of its own and its key lead to the same member. -/
theorem getKey?_key
    (group : Group)
    {path : TokenPath}
    (isNotEmpty : path ≠ [])
    (dotless : path.Dotless) :
    group.getKey? path.key = group.get? path := by
  rw [getKey?, TokenPath.splitText_key isNotEmpty dotless]

/--
A walk of a group with distinct names visits every path once, and a token under
a path exactly when the path leads to it; the group counts as many tokens as
there are such paths, and a path with a segment, but with no dot in any of them,
leads where its key does.
-/
theorem walk_visits_tokens_once
    (group : Group)
    (distinct : Node.NamesDistinctBelow group) :
    (group.walk.map Prod.fst).Nodup ∧
      (∀ path token, (path, token) ∈ group.walk ↔
        group.get? path = some (.token token)) ∧
      group.tokenPaths.encard = group.tokenCount ∧
      ∀ path : TokenPath, path ≠ [] → path.Dotless →
        group.getKey? path.key = group.get? path :=
  ⟨Node.nodup_walkMembers group distinct, fun _ _ => mem_walk_iff_get? distinct,
    encard_tokenPaths distinct, fun _ => group.getKey?_key⟩

/-- Two steps, one of them named with a dot, beside an empty group. -/
def steps : Group :=
  [("step", .group
      [("0.5", .token (.plain "number" (.plain (.int 2)))),
        ("large", .token (.plain "number" (.plain (.int 8))))]),
    ("unused", .group [])]

/-- Both steps are counted, and the one without a dot is found by its key. -/
theorem walk_steps :
    Node.NamesDistinctBelow steps ∧
      steps.tokenPaths.encard = 2 ∧
      ["step", "0.5"] ∈ steps.walk.map Prod.fst ∧
      steps.getKey? "step.large" =
        some (.token (.plain "number" (.plain (.int 8)))) := by
  have distinct : Node.NamesDistinctBelow steps := by
    simp [steps, Node.NamesDistinctBelow, Node.NamesDistinct]
  obtain ⟨_, visits, counts, keys⟩ := walk_visits_tokens_once steps distinct
  refine ⟨distinct, counts, ?_, ?_⟩
  · exact List.mem_map.mpr ⟨_, (visits ["step", "0.5"] _).mpr rfl, rfl⟩
  · have isKey : TokenPath.key ["step", "large"] = "step.large" := by decide
    rw [← isKey, keys ["step", "large"] (by simp) (by simp [TokenPath.Dotless])]
    rfl

end Group

end DesignTokens
