import DesignTokens.Proofs.Theme.Paths
import DesignTokens.Proofs.Theme.Resolution

namespace DesignTokens

/-!
# Broken references

A reference is reported as broken when no token has its path as key, and
following it splits its path at the dots.  The two agree on every token whose
segments have no dot of their own.  A token with a dot in a segment has a key
that leads elsewhere: a reference to it may find nothing without being reported.
-/

open DesignTokens.Text

/--
A group with distinct names has a token for a key exactly when its walk
visits one there.
-/
theorem Group.token?_eq_some_iff
    {group : Group}
    (distinct : Node.NamesDistinctBelow group)
    {key : String}
    {token : Token} :
    group.token? key = some token ↔ (splitText '.' key, token) ∈ group.walk := by
  refine ⟨mem_walk_of_token?, fun visited => ?_⟩
  rw [token?, getKey?, (mem_walk_iff_get? distinct).mp visited]
  rfl

namespace Theme

/-- The names of every group of every tree are distinct. -/
def NamesDistinct (theme : Theme) : Prop :=
  ∀ collection ∈ theme.collections, ∀ entry ∈ collection.tokens,
    Node.NamesDistinctBelow entry.2

/-- Every token of a theme stands at a path with a segment. -/
theorem path_ne_nil
    {theme : Theme}
    {located : Located}
    (isLocated : located ∈ theme.walk) :
    located.path ≠ [] := by
  obtain ⟨_, tree, _, visited⟩ := mem_walk_iff.mp isLocated
  exact Node.ne_nil_of_mem_walkMembers visited

/--
In every mode a key is found when a tree has a token at the segments of the key.
-/
theorem find?_eq_none_iff
    {theme : Theme}
    (distinct : theme.NamesDistinct)
    {key : String}
    {mode : Label} :
    theme.find? key mode = none ↔
      ∀ located ∈ theme.walk, splitText '.' key ≠ located.path := by
  constructor
  · intro isMissing located isLocated samePath
    obtain ⟨isCollection, tree, isTree, visited⟩ := mem_walk_iff.mp isLocated
    have isThere : tree.token? key = some located.token := by
      rw [Group.token?_eq_some_iff (distinct _ isCollection _ isTree), samePath]
      exact visited
    have isNowhere := (Option.or_eq_none_iff.mp isMissing).2
    have notInCollection := List.findSome?_eq_none_iff.mp isNowhere _ isCollection
    have notInTree := List.findSome?_eq_none_iff.mp notInCollection _ isTree
    cases isThere.symm.trans notInTree
  · intro isNowhere
    cases isThere : theme.find? key mode with
    | none => rfl
    | some found =>
        obtain ⟨located, isLocated, isPath, _⟩ := exists_located_of_find? isThere
        exact (isNowhere located isLocated isPath.symm).elim

/-- A reference is reported at a token when no token has its path as key. -/
theorem mem_brokenReferences_iff
    {theme : Theme}
    {located : Located}
    {reference : Reference}
    (isLocated : located ∈ theme.walk)
    (isReference : located.token.value = .reference reference) :
    ⟨located.collection.name, located.mode, located.path.key, reference.path⟩ ∈
        theme.brokenReferences ↔
      reference.path ∉ theme.keys := by
  constructor
  · intro isReported isKey
    obtain ⟨other, _, reported⟩ := List.mem_filterMap.mp isReported
    unfold brokenReference? at reported
    split at reported
    · split at reported
      · cases reported
      · rename_i isNoKey
        obtain ⟨_, _, _, sameTarget⟩ :=
          BrokenReference.mk.inj (Option.some.inj reported)
        exact isNoKey (by simpa [sameTarget] using isKey)
    · cases reported
  · intro isNoKey
    refine List.mem_filterMap.mpr ⟨located, isLocated, ?_⟩
    simp [brokenReference?, TokenValue.reference?_eq_some.mpr isReference, isNoKey]

/--
Tokens have a text as their key, and the path of each of them has a
segment with a dot.
-/
def Hides (theme : Theme) (key : String) : Prop :=
  key ∈ theme.keys ∧
    ∀ located ∈ theme.walk, located.path.key = key → ¬ located.path.Dotless

/--
In every mode, following a reference finds no token exactly when the reference
is reported as broken, or when it is the key of tokens whose paths all have a
segment with a dot.
-/
theorem hop_eq_none_iff_broken_or_hidden
    {theme : Theme}
    (distinct : theme.NamesDistinct)
    {located : Located}
    (isLocated : located ∈ theme.walk)
    {reference : Reference}
    (isReference : located.token.value = .reference reference)
    (mode : Label) :
    theme.hop reference mode = none ↔
      ⟨located.collection.name, located.mode, located.path.key, reference.path⟩ ∈
          theme.brokenReferences ∨
        theme.Hides reference.path := by
  rw [hop, find?_eq_none_iff distinct,
    mem_brokenReferences_iff isLocated isReference]
  constructor
  · intro isNowhere
    by_cases isKey : reference.path ∈ theme.keys
    · refine .inr ⟨isKey, fun other isOther sameKey dotless => ?_⟩
      exact isNowhere other isOther
        ((TokenPath.splitText_eq_iff (path_ne_nil isOther)).mpr ⟨sameKey, dotless⟩)
    · exact .inl isKey
  · intro isGone other isOther isPath
    obtain ⟨sameKey, dotless⟩ :=
      (TokenPath.splitText_eq_iff (path_ne_nil isOther)).mp isPath
    rcases isGone with isNoKey | ⟨_, hidden⟩
    · exact isNoKey (List.mem_map.mpr ⟨other, isOther, sameKey⟩)
    · exact hidden other isOther sameKey dotless

/-- A number token that references a path. -/
def numberAt (path : String) : Token :=
  .plain "number" (.reference ⟨path⟩)

/-- A number below a segment with a dot, one reference to it and one to nothing. -/
def spacings : Collection where
  name := .str "spacings"
  modes := [.str "base"]
  defaultMode := .str "base"
  tokens :=
    [ (.str "base",
        [ ("spacing", .group [("0.5", .token (.plain "number" (.plain (.int 2))))]),
          ("gap", .token (numberAt "spacing.0.5")),
          ("margin", .token (numberAt "spacing.1")) ]) ]
  description := .null

/-- A theme of the spacings. -/
def spacious : Theme where
  name := .str "spacious"
  collections := [spacings]
  provenance? := none
  description := .null

/-- Names of the spacings are distinct. -/
theorem namesDistinct_spacious : spacious.NamesDistinct := by
  simp [NamesDistinct, spacious, spacings, Node.NamesDistinctBelow,
    Node.NamesDistinct]

/-- The reference to nothing finds nothing, since it is reported. -/
theorem hop_spacious_margin :
    spacious.NamesDistinct ∧
      ⟨spacings, .str "base", ["margin"], numberAt "spacing.1"⟩ ∈ spacious.walk ∧
      (numberAt "spacing.1").value = .reference ⟨"spacing.1"⟩ ∧
      spacious.hop ⟨"spacing.1"⟩ .null = none := by
  have isLocated : ⟨spacings, .str "base", ["margin"], numberAt "spacing.1"⟩ ∈
      spacious.walk := by
    simp [walk, spacious, spacings, Group.walk, Node.walkMembers, Node.walk]
  refine ⟨namesDistinct_spacious, isLocated, rfl, ?_⟩
  refine (hop_eq_none_iff_broken_or_hidden namesDistinct_spacious isLocated rfl
    .null).mpr (.inl ?_)
  refine (mem_brokenReferences_iff isLocated rfl).mpr ?_
  decide +kernel

/-- The reference to the number finds nothing, and it is not reported. -/
theorem hop_spacious_gap :
    spacious.NamesDistinct ∧
      ⟨spacings, .str "base", ["gap"], numberAt "spacing.0.5"⟩ ∈ spacious.walk ∧
      spacious.hop ⟨"spacing.0.5"⟩ .null = none ∧
      ⟨.str "spacings", .str "base", "gap", "spacing.0.5"⟩ ∉
        spacious.brokenReferences := by
  have isLocated :
      ⟨spacings, .str "base", ["gap"], numberAt "spacing.0.5"⟩ ∈ spacious.walk := by
    simp [walk, spacious, spacings, Group.walk, Node.walkMembers, Node.walk]
  refine ⟨namesDistinct_spacious, isLocated, ?_, fun isReported => ?_⟩
  · have segments : splitText '.' "spacing.0.5" = ["spacing", "0", "5"] :=
      by decide +kernel
    rw [hop, find?_eq_none_iff namesDistinct_spacious, segments]
    simp [walk, spacious, spacings, Group.walk, Node.walkMembers, Node.walk]
  · refine (mem_brokenReferences_iff isLocated rfl).mp isReported ?_
    decide +kernel

end Theme

end DesignTokens
