import DesignTokens.Proofs.Theme.Documents
import DesignTokens.Proofs.Wire.References

namespace DesignTokens

/-!
# The normal form of a document

Reading a document and writing what was read absorbs every other spelling: what
counts as empty becomes absent, and values take their canonical form.  A theme
that was read has the document of its normal theme, the normal theme is
canonical, and canonical themes are read back from their documents.
-/

namespace Wire

/-- The value, or null when it counts as empty. -/
def orNull (value : Wire) : Wire :=
  if value.isTruthy then value else .null

/-- What is left of a value is null or counts as present. -/
theorem nullOrPresent_orNull
    (value : Wire) :
    value.orNull.NullOrPresent := by
  by_cases present : value.isTruthy = true
  · exact .inr (by simp [orNull, present])
  · exact .inl (by simp [orNull, present])

/-- A value that counts as empty is left out like null. -/
@[simp] theorem truthyMember_orNull
    (name : String)
    (value : Wire) :
    truthyMember name value.orNull = truthyMember name value := by
  by_cases present : value.isTruthy = true
  · simp [orNull, present]
  · have nullIsAbsent : Wire.null.isTruthy = false := rfl
    simp [truthyMember, orNull, present, nullIsAbsent]

end Wire

namespace Token

/-- The token with its value in normal form and without an empty description. -/
def normal (token : Token) : Token :=
  { token with
    value := token.value.normal, description := token.description.orNull }

/-- A token is written as its normal form is. -/
theorem encode_normal
    (token : Token) :
    token.normal.encode .standard = token.encode .standard := by
  simp [encode, normal, TokenValue.encodeValue_normal]

/-- The normal form of a token that was read is canonical. -/
theorem canonical_normal_of_decode
    {data : Wire}
    {token : Token}
    (decoded : Token.decode .standard data = .ok token)
    (bare : data.BareReferences) :
    token.normal.Canonical := by
  simp only [decode, bind_eq_ok_iff, pure_eq_ok_iff, lift_eq_ok_iff] at decoded
  obtain ⟨type, _, valueData, isValue, value, valueRead, _, _, _, _, _, _, rfl⟩ :=
    decoded
  exact {
    value :=
      TokenValue.canonical_normal_of_decodeValue valueRead
        (fun _ isThere => (bare.of_require isValue).of_lookup? isThere)
    description := Wire.nullOrPresent_orNull _ }

end Token

namespace Node

mutual

/-- The tree with every token in normal form. -/
def normal : Node → Node
  | .token leaf => .token leaf.normal
  | .group members => .group (normalMembers members)

/-- The members with every token in normal form. -/
def normalMembers : List (String × Node) → List (String × Node)
  | [] => []
  | (name, child) :: rest => (name, normal child) :: normalMembers rest

end

mutual

/-- A tree is written as its normal form is. -/
theorem encode_normal
    (node : Node) :
    node.normal.encode .standard = node.encode .standard := by
  match node with
  | .token leaf => rw [normal, encode, encode, leaf.encode_normal]
  | .group members => rw [normal, encode, encode, encodeMembers_normal members]

/-- Members are written as their normal forms are. -/
theorem encodeMembers_normal
    (members : List (String × Node)) :
    encodeMembers .standard (normalMembers members) =
      encodeMembers .standard members := by
  match members with
  | [] => rfl
  | (name, child) :: rest =>
      rw [normalMembers, encodeMembers, encodeMembers, encode_normal child,
        encodeMembers_normal rest]

end

mutual

/-- The normal form of a tree that was read is canonical. -/
theorem canonical_normal_of_decode?
    (data : Wire)
    (node : Node)
    (decoded : decode? .standard data = .ok (some node))
    (bare : data.BareReferences) :
    node.normal.Canonical := by
  match data with
  | .obj members =>
      rw [decode?] at decoded
      split at decoded
      · obtain ⟨leaf, leafRead, isNode⟩ := map_eq_ok_iff.mp decoded
        obtain rfl := Option.some.inj isNode
        rw [normal, Canonical]
        exact Token.canonical_normal_of_decode leafRead bare
      · obtain ⟨nodes, nodesRead, isNode⟩ := map_eq_ok_iff.mp decoded
        obtain rfl := Option.some.inj isNode
        rw [normal, Canonical]
        exact canonical_normal_of_decodeMembers members nodes nodesRead
          (fun _ isMember => bare.of_member isMember)
  | .null | .bool _ | .int _ | .float _ | .str _ | .list _ => cases decoded

/-- The normal forms of members that were read are canonical. -/
theorem canonical_normal_of_decodeMembers
    (members : List (String × Wire))
    (nodes : List (String × Node))
    (decoded : decodeMembers .standard members = .ok nodes)
    (bare : ∀ member ∈ members, member.2.BareReferences) :
    CanonicalMembers (normalMembers nodes) := by
  match members with
  | [] =>
      obtain rfl := Except.ok.inj decoded
      trivial
  | (name, form) :: rest =>
      have restBare : ∀ member ∈ rest, member.2.BareReferences :=
        fun member isMember => bare member (List.mem_cons_of_mem _ isMember)
      rw [decodeMembers] at decoded
      split at decoded
      · exact canonical_normal_of_decodeMembers rest nodes decoded restBare
      · rename_i notReserved
        obtain ⟨node?, formRead, decoded⟩ := bind_eq_ok_iff.mp decoded
        cases node? with
        | none =>
            exact canonical_normal_of_decodeMembers rest nodes decoded restBare
        | some node =>
            obtain ⟨restNodes, restRead, joined⟩ := bind_eq_ok_iff.mp decoded
            obtain rfl := pure_eq_ok_iff.mp joined
            exact ⟨eq_false_of_ne_true notReserved,
              canonical_normal_of_decode? form node formRead
                (bare (name, form) (by simp)),
              canonical_normal_of_decodeMembers rest restNodes restRead restBare⟩

end

end Node

namespace Group

/-- The normal form of a group that was read is canonical. -/
theorem canonical_normal_of_decode
    {data : Wire}
    {group : Group}
    (decoded : Group.decode .standard data = .ok group)
    (bare : data.BareReferences) :
    Node.CanonicalMembers (Node.normalMembers group) := by
  simp only [decode, bind_eq_ok_iff, lift_eq_ok_iff] at decoded
  obtain ⟨members, areMembers, membersRead⟩ := decoded
  cases data with
  | obj given =>
      obtain rfl := Except.ok.inj areMembers
      exact Node.canonical_normal_of_decodeMembers given group membersRead
        (fun _ isMember => bare.of_member isMember)
  | _ => cases areMembers

end Group

namespace Collection

/--
The collection with every token in normal form and without an empty description.
-/
def normal (collection : Collection) : Collection :=
  { collection with
    tokens :=
      collection.tokens.map (fun tree => (tree.1, Node.normalMembers tree.2))
    description := collection.description.orNull }

/-- A collection is written as its normal form is. -/
theorem encode_normal
    (collection : Collection) :
    collection.normal.encode .standard = collection.encode .standard := by
  have sameTrees : encodeTrees .standard collection.normal.tokens =
      encodeTrees .standard collection.tokens := by
    simp only [encodeTrees, normal, List.mapM_map, Function.comp_def, Group.encode,
      Node.encodeMembers_normal]
  rw [encode, encode, sameTrees]
  simp [normal]

/-- A value that counts as present has parts when it can be taken apart. -/
theorem ne_nil_of_parts
    {data : Wire}
    {parts : List Wire}
    (present : data.isTruthy = true)
    (areParts : data.parts = .ok parts) :
    parts ≠ [] := by
  cases data with
  | list items =>
      obtain rfl := Except.ok.inj areParts
      simpa [Wire.isTruthy] using present
  | str text =>
      obtain rfl := Except.ok.inj areParts
      simpa [Wire.isTruthy] using present
  | obj members =>
      obtain rfl := Except.ok.inj areParts
      simpa [Wire.isTruthy] using present
  | _ => cases areParts

/-- A document with trees declares modes, or takes them from the trees. -/
theorem ne_nil_of_decodeModes
    {data : Wire}
    {modes : List Label}
    {trees : List (String × Wire)}
    (modesRead : decodeModes data = .ok modes)
    (areTrees : data.getD "tokens" (.obj []) = .ok (.obj trees))
    (someTree : trees ≠ []) :
    modes ≠ [] := by
  obtain ⟨declared, _, modesRead⟩ := bind_eq_ok_iff.mp modesRead
  split at modesRead
  · rename_i present
    exact ne_nil_of_parts present modesRead
  · rw [areTrees] at modesRead
    obtain rfl := Except.ok.inj modesRead
    simpa using someTree

/-- The normal form of a collection that was read is canonical. -/
theorem canonical_normal_of_decode
    {data : Wire}
    {collection : Collection}
    (decoded : Collection.decode .standard data = .ok collection)
    (bare : data.BareReferences) :
    collection.normal.Canonical := by
  simp only [decode, bind_eq_ok_iff, pure_eq_ok_iff, lift_eq_ok_iff] at decoded
  obtain ⟨modes, modesRead, name, _, defaultMode, _, treesData, areTrees, members,
      areMembers, trees, treesRead, description, _, rfl⟩ := decoded
  obtain rfl : treesData = .obj members := by
    cases treesData with
    | obj given => exact congrArg Wire.obj (Except.ok.inj areMembers)
    | _ => cases areMembers
  have treesBare : (Wire.obj members).BareReferences :=
    bare.of_getD (by decide) areTrees
  have everyTree : ∀ tree ∈ trees, (∃ name, tree.1 = .str name) ∧
      Node.CanonicalMembers (Node.normalMembers tree.2) := by
    intro tree isTree
    obtain ⟨member, isMember, memberRead⟩ := exists_of_mem_mapM treesRead isTree
    obtain ⟨group, groupRead, isTreeOf⟩ := bind_eq_ok_iff.mp memberRead
    obtain rfl := pure_eq_ok_iff.mp isTreeOf
    exact ⟨⟨member.1, rfl⟩,
      Group.canonical_normal_of_decode groupRead (treesBare.of_member isMember)⟩
  refine ⟨?_, ?_, ?_, Wire.nullOrPresent_orNull _⟩
  · intro someTree
    refine ne_nil_of_decodeModes modesRead areTrees (fun noMembers => someTree ?_)
    subst noMembers
    obtain rfl : [] = trees := Except.ok.inj treesRead
    rfl
  · intro tree isTree
    obtain ⟨original, isOriginal, rfl⟩ := List.mem_map.mp isTree
    exact (everyTree original isOriginal).1
  · intro tree isTree
    obtain ⟨original, isOriginal, rfl⟩ := List.mem_map.mp isTree
    exact (everyTree original isOriginal).2

end Collection

namespace Provenance

/-- Provenance without empty parts among those that may be absent. -/
def normal (provenance : Provenance) : Provenance :=
  { provenance with
    fileKey := provenance.fileKey.orNull
    lastSynced := provenance.lastSynced.orNull }

/-- Provenance is written as its normal form is. -/
theorem encode_normal
    (provenance : Provenance) :
    provenance.normal.encode = provenance.encode := by
  simp [encode, normal]

/-- Provenance in normal form is canonical. -/
theorem canonical_normal
    (provenance : Provenance) :
    provenance.normal.Canonical :=
  ⟨Wire.nullOrPresent_orNull _, Wire.nullOrPresent_orNull _⟩

end Provenance

namespace Theme

/-- The theme with all its parts in normal form. -/
def normal (theme : Theme) : Theme :=
  { theme with
    collections := theme.collections.map Collection.normal
    provenance? := theme.provenance?.map Provenance.normal
    description := theme.description.orNull }

/-- A theme is written as its normal form is. -/
theorem encode_normal
    (theme : Theme) :
    theme.normal.encode .standard = theme.encode .standard := by
  have sameCollections :
      theme.normal.collections.mapM (Collection.encode .standard) =
        theme.collections.mapM (Collection.encode .standard) := by
    simp only [normal, List.mapM_map, Function.comp_def, Collection.encode_normal]
  rw [encode, encode, sameCollections]
  rcases theme with ⟨name, collections, _ | provenance, description⟩
  · simp [normal]
  · simp [normal, Provenance.encode_normal]

/-- The collections of a theme that was read are what was read from its document. -/
theorem collections_of_decode
    {data : Wire}
    {theme : Theme}
    (decoded : Theme.decode .standard data = .ok theme) :
    ∃ collectionsData parts,
      data.getD "collections" (.list []) = .ok collectionsData ∧
        collectionsData.parts = .ok parts ∧
        parts.mapM (Collection.decode .standard) = .ok theme.collections := by
  simp only [decode, bind_eq_ok_iff, lift_eq_ok_iff] at decoded
  obtain ⟨_, _, _, _, collectionsData, areCollections, parts, areParts, collections,
      collectionsRead, decoded⟩ := decoded
  refine ⟨collectionsData, parts, areCollections, areParts, ?_⟩
  split at decoded
  all_goals
    simp only [bind_eq_ok_iff, pure_eq_ok_iff] at decoded
  · obtain ⟨_, _, _, _, _, _, rfl⟩ := decoded
    exact collectionsRead
  · obtain ⟨_, _, _, _, rfl⟩ := decoded
    exact collectionsRead

/-- The normal form of a theme that was read is canonical. -/
theorem canonical_normal_of_decode
    {data : Wire}
    {theme : Theme}
    (decoded : Theme.decode .standard data = .ok theme)
    (bare : data.BareReferences) :
    theme.normal.Canonical := by
  obtain ⟨collectionsData, parts, areCollections, areParts, collectionsRead⟩ :=
    collections_of_decode decoded
  have collectionsBare : collectionsData.BareReferences :=
    bare.of_getD (by decide) areCollections
  refine ⟨?_, ?_, Wire.nullOrPresent_orNull _⟩
  · intro collection isCollection
    obtain ⟨original, isOriginal, rfl⟩ := List.mem_map.mp isCollection
    obtain ⟨part, isPart, originalRead⟩ :=
      exists_of_mem_mapM collectionsRead isOriginal
    exact Collection.canonical_normal_of_decode originalRead
      (collectionsBare.of_parts areParts isPart)
  · intro provenance isProvenance
    obtain ⟨original, _, rfl⟩ := Option.map_eq_some_iff.mp isProvenance
    exact original.canonical_normal

/-- The document of what a document says. -/
def normalForm (registry : Registry) (data : Wire) : Except Failure Wire := do
  let theme ← Theme.decode registry data
  theme.encode registry

/--
A document that is read as a theme, and in which no reference still stands in
braces when one pair of them is taken away, has a normal form.  The normal form
is read as the normal theme, and it is its own normal form.
-/
theorem normalForm_normalForm
    {data : Wire}
    {theme : Theme}
    (decoded : Theme.decode .standard data = .ok theme)
    (bare : data.BareReferences) :
    ∃ form,
      normalForm .standard data = .ok form ∧
        Theme.decode .standard form = .ok theme.normal ∧
        normalForm .standard form = .ok form := by
  obtain ⟨form, written, readBack⟩ :=
    exists_form (canonical_normal_of_decode decoded bare)
  have sameForm : theme.encode .standard = .ok form := by
    rw [← encode_normal, written]
  refine ⟨form, ?_, readBack, ?_⟩
  · rw [normalForm, decoded, ok_bind, sameForm]
  · rw [normalForm, readBack, ok_bind, written]

/--
A document with an empty description, derived modes, and values in
other spellings.
-/
def loose : Wire :=
  .obj
    [ ("name", .str "brand"),
      ("description", .str ""),
      ("collections",
        .list
          [ .obj
              [ ("name", .str "base"),
                ("tokens",
                  .obj
                    [ ("light",
                        .obj
                          [ ("$note", .str "for another tool"),
                            ("font",
                              .obj
                                [ ("$type", .str "fontFamily"),
                                  ("$value", .str "Inter, serif") ]),
                            ("ease",
                              .obj
                                [ ("$type", .str "cubicBezier"),
                                  ("$value",
                                    .obj
                                      [ ("x1", .int 0), ("y1", .int 0),
                                        ("x2", .int 1), ("y2", .int 1) ]) ]),
                            ("heading",
                              .obj
                                [ ("$type", .str "fontFamily"),
                                  ("$value",
                                    .obj [("$ref", .str "\x7bfont\x7d")]) ]) ]) ]) ]
          ]) ]

/-- The normal form of the loose document. -/
def tidy : Wire :=
  .obj
    [ ("name", .str "brand"),
      ("collections",
        .list
          [ .obj
              [ ("name", .str "base"),
                ("modes", .list [.str "light"]),
                ("defaultMode", .str "light"),
                ("tokens",
                  .obj
                    [ ("light",
                        .obj
                          [ ("font",
                              .obj
                                [ ("$type", .str "fontFamily"),
                                  ("$value", .list [.str "Inter", .str "serif"]) ]),
                            ("ease",
                              .obj
                                [ ("$type", .str "cubicBezier"),
                                  ("$value",
                                    .list [.int 0, .int 0, .int 1, .int 1]) ]),
                            ("heading",
                              .obj
                                [ ("$type", .str "fontFamily"),
                                  ("$value",
                                    .obj [("$ref", .str "font")]) ]) ]) ]) ]
          ]) ]

/--
The loose document is read, and its normal form is the tidy one,
which is its own.
-/
theorem normalForm_loose :
    (∃ theme, Theme.decode .standard loose = .ok theme) ∧
      loose.BareReferences ∧
      normalForm .standard loose = .ok tidy ∧
      normalForm .standard tidy = .ok tidy := by
  have bare : loose.BareReferences := by decide +kernel
  have isTidy : normalForm .standard loose = .ok tidy := rfl
  obtain ⟨form, isForm, _, again⟩ := @normalForm_normalForm loose _ rfl bare
  obtain rfl : tidy = form := Except.ok.inj (isTidy.symm.trans isForm)
  exact ⟨⟨_, rfl⟩, bare, isTidy, again⟩

end Theme

end DesignTokens
