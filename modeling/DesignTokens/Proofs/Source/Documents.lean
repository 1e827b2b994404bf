import DesignTokens.Proofs.Theme.Building
import DesignTokens.Proofs.Theme.Documents

namespace DesignTokens

/-!
# Documents of orderly themes

The document of a group cannot tell an empty group from one whose members all
belong to other tools.  A tree that was built has no empty groups, so it is
enough to look at the tokens that a walk visits: when they are canonical and no
segment of their paths is reserved, the whole tree is canonical.
-/

/-- A canonical token at a path without reserved segments. -/
structure Entries.Recordable (path : TokenPath) (token : Token) : Prop where
  free : ∀ segment ∈ path, Node.isReserved segment = false
  token : token.Canonical

namespace Node

mutual

/--
A node whose groups all have members is canonical when every token in it
can be recorded.
-/
theorem canonical_of_walk
    (node : Node)
    (occupied : node.Occupied)
    (each : ∀ entry ∈ node.walk, Entries.Recordable entry.1 entry.2) :
    node.Canonical := by
  match node with
  | .token leaf => exact (each ([], leaf) (by simp [walk])).token
  | .group members => exact canonicalMembers_of_walk members occupied.2 each

theorem canonicalMembers_of_walk
    (members : List (String × Node))
    (occupied : OccupiedBelow members)
    (each : ∀ entry ∈ walkMembers members, Entries.Recordable entry.1 entry.2) :
    CanonicalMembers members := by
  match members with
  | [] => trivial
  | (name, child) :: rest =>
      rw [walkMembers, List.forall_mem_append] at each
      obtain ⟨inChild, inRest⟩ := each
      have below (entry : TokenPath × Token) (visited : entry ∈ child.walk) :
          Entries.Recordable (name :: entry.1) entry.2 :=
        inChild (name :: entry.1, entry.2) (List.mem_map_of_mem visited)
      -- The name is a segment of the path of some token, since the child is not
      -- empty.
      obtain ⟨visit, visited⟩ :=
        List.exists_mem_of_ne_nil _ (occupied.1.walk_ne_nil)
      refine ⟨(below visit visited).free name (by simp), ?_,
        canonicalMembers_of_walk rest occupied.2 inRest⟩
      refine canonical_of_walk child occupied.1 fun entry isEntry =>
        ⟨?_, (below entry isEntry).token⟩
      exact fun segment isSegment =>
        (below entry isEntry).free segment (List.mem_cons_of_mem _ isSegment)

end

end Node

/--
An orderly collection of recordable tokens is canonical when its
description is not empty.
-/
theorem Collection.Orderly.canonical
    {collection : Collection}
    (orderly : collection.Orderly Entries.Recordable)
    (description : collection.description.NullOrPresent) :
    collection.Canonical where
  modes someTrees noModes := by
    have labels := orderly.labels
    rw [noModes, List.map_eq_nil_iff] at labels
    exact someTrees labels
  labels tree isTree := by
    obtain ⟨names, _, areModes⟩ := orderly.named
    have isMode : tree.1 ∈ collection.modes :=
      orderly.labels ▸ List.mem_map_of_mem isTree
    rw [areModes] at isMode
    obtain ⟨name, _, isName⟩ := List.mem_map.mp isMode
    exact ⟨name, isName.symm⟩
  trees tree isTree :=
    Node.canonicalMembers_of_walk tree.2 (orderly.tidy tree isTree).occupied
      (orderly.fits tree isTree)
  description := description

/-- What fits in one sense fits in any that follows from it. -/
theorem Collection.Orderly.mono
    {collection : Collection}
    {Fits Suits : TokenPath → Token → Prop}
    (orderly : collection.Orderly Fits)
    (follows : ∀ tree ∈ collection.tokens, ∀ entry ∈ tree.2.walk,
      Fits entry.1 entry.2 → Suits entry.1 entry.2) :
    collection.Orderly Suits :=
  ⟨orderly.toModesInOrder, orderly.tidy, fun tree isTree entry visited =>
    follows tree isTree entry visited (orderly.fits tree isTree entry visited)⟩

end DesignTokens
