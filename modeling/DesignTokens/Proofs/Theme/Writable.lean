import DesignTokens.Proofs.Theme.NormalForm

namespace DesignTokens

/-!
# Tokens that can be written

A value that was read under a type and is no reference can be written under that
type again, in whatever spelling it stood.  So can every token in the trees of a
theme that was read.
-/

/--
A value that was read and is no reference is written as its document form,
under a type tag.
-/
theorem TokenValue.encodeValue_of_decodeValue
    {type data : Wire}
    {value : TokenValue}
    (decoded : Registry.standard.decodeValue type data = .ok value)
    (noReference : value.isReference = false) :
    (∃ tag, type = .str tag) ∧
      Registry.standard.encodeValue type value = .ok value.encode := by
  cases isMarked : Wire.lookup? "$ref" data.members with
  | some target =>
      rw [Registry.decodeValue, isMarked] at decoded
      obtain ⟨reference, _, isValue⟩ := bind_eq_ok_iff.mp decoded
      obtain rfl := pure_eq_ok_iff.mp isValue
      cases noReference
  | none =>
      have canonical : value.normal.Canonical type := by
        apply canonical_normal_of_decodeValue decoded
        intro text isText
        rw [isMarked] at isText
        cases isText
      rw [Registry.decodeValue, isMarked] at decoded
      obtain ⟨handler, isFound, _⟩ := bind_eq_ok_iff.mp decoded
      constructor
      · exact ⟨handler.tag, (Registry.get_standard_eq_ok isFound).1⟩
      · rw [← encodeValue_normal, encodeValue_of_canonical canonical, encode_normal]

namespace Token

/--
A token whose value is a reference, or is written as its document form
under a type tag.
-/
def Writable (token : Token) : Prop :=
  token.value.isReference = false →
    (∃ tag, token.type = .str tag) ∧
      Registry.standard.encodeValue token.type token.value = .ok token.value.encode

/-- A token that was read can be written. -/
theorem writable_of_decode
    {data : Wire}
    {token : Token}
    (decoded : Token.decode .standard data = .ok token) :
    token.Writable := by
  simp only [decode, bind_eq_ok_iff, pure_eq_ok_iff, lift_eq_ok_iff] at decoded
  obtain ⟨type, _, valueData, _, value, valueRead, _, _, _, _, _, _, rfl⟩ := decoded
  exact TokenValue.encodeValue_of_decodeValue valueRead

end Token

namespace Node

mutual

/-- Every token of a tree that was read can be written. -/
theorem writable_of_decode?
    (data : Wire)
    (node : Node)
    (decoded : decode? .standard data = .ok (some node)) :
    ∀ entry ∈ node.walk, entry.2.Writable := by
  match data with
  | .obj members =>
      rw [decode?] at decoded
      split at decoded
      · obtain ⟨leaf, leafRead, isNode⟩ := map_eq_ok_iff.mp decoded
        obtain rfl := Option.some.inj isNode
        rw [walk, List.forall_mem_singleton]
        exact Token.writable_of_decode leafRead
      · obtain ⟨nodes, nodesRead, isNode⟩ := map_eq_ok_iff.mp decoded
        obtain rfl := Option.some.inj isNode
        exact writable_of_decodeMembers members nodes nodesRead
  | .null | .bool _ | .int _ | .float _ | .str _ | .list _ => cases decoded

/-- Every token of members that were read can be written. -/
theorem writable_of_decodeMembers
    (members : List (String × Wire))
    (nodes : List (String × Node))
    (decoded : decodeMembers .standard members = .ok nodes) :
    ∀ entry ∈ walkMembers nodes, entry.2.Writable := by
  match members with
  | [] =>
      obtain rfl := Except.ok.inj decoded
      exact List.forall_mem_nil _
  | (name, form) :: rest =>
      rw [decodeMembers] at decoded
      split at decoded
      · exact writable_of_decodeMembers rest nodes decoded
      · obtain ⟨node?, formRead, decoded⟩ := bind_eq_ok_iff.mp decoded
        cases node? with
        | none => exact writable_of_decodeMembers rest nodes decoded
        | some node =>
            obtain ⟨restNodes, restRead, joined⟩ := bind_eq_ok_iff.mp decoded
            obtain rfl := pure_eq_ok_iff.mp joined
            rw [walkMembers, List.forall_mem_append, List.forall_mem_map]
            exact ⟨writable_of_decode? form node formRead,
              writable_of_decodeMembers rest restNodes restRead⟩

end

end Node

/-- Every token of a group that was read can be written. -/
theorem Group.writable_of_decode
    {data : Wire}
    {group : Group}
    (decoded : Group.decode .standard data = .ok group) :
    ∀ entry ∈ group.walk, entry.2.Writable := by
  simp only [decode, bind_eq_ok_iff, lift_eq_ok_iff] at decoded
  obtain ⟨members, _, membersRead⟩ := decoded
  exact Node.writable_of_decodeMembers members group membersRead

/-- Every token in a tree of a collection that was read can be written. -/
theorem Collection.writable_of_decode
    {data : Wire}
    {collection : Collection}
    (decoded : Collection.decode .standard data = .ok collection) :
    ∀ tree ∈ collection.tokens, ∀ entry ∈ tree.2.walk, entry.2.Writable := by
  simp only [decode, bind_eq_ok_iff, pure_eq_ok_iff, lift_eq_ok_iff] at decoded
  obtain ⟨_, _, _, _, _, _, _, _, members, _, trees, treesRead, _, _, rfl⟩ :=
    decoded
  intro tree isTree
  obtain ⟨member, _, memberRead⟩ := exists_of_mem_mapM treesRead isTree
  obtain ⟨group, groupRead, isTreeOf⟩ := bind_eq_ok_iff.mp memberRead
  obtain rfl := pure_eq_ok_iff.mp isTreeOf
  exact Group.writable_of_decode groupRead

/-- Every token of a theme that was read can be written. -/
theorem Theme.writable_of_decode
    {data : Wire}
    {theme : Theme}
    (decoded : Theme.decode .standard data = .ok theme) :
    ∀ collection ∈ theme.collections,
      ∀ tree ∈ collection.tokens, ∀ entry ∈ tree.2.walk,
      entry.2.Writable := by
  obtain ⟨_, parts, _, _, collectionsRead⟩ := collections_of_decode decoded
  intro collection isCollection
  obtain ⟨part, _, partRead⟩ := exists_of_mem_mapM collectionsRead isCollection
  exact Collection.writable_of_decode partRead

end DesignTokens
