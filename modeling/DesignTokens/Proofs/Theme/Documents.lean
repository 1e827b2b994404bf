import DesignTokens.Proofs.Registry.Documents
import DesignTokens.Theme.Codec

namespace DesignTokens

/-!
# Themes are read back from their documents

A canonical theme is the result of reading its own document.  What has to be
canonical about it follows the places where the document form leaves something
out: parts that count as empty, names that belong to other tools, and values
that would be taken for something else.
-/

namespace Wire

/-- Null, or a value that counts as present. -/
def NullOrPresent (value : Wire) : Prop :=
  value = .null ∨ value.isTruthy = true

/-- What a member that is left out when its value counts as empty holds. -/
theorem lookup?_truthyMember
    (name other : String)
    (value : Wire) :
    lookup? name (truthyMember other value) =
      if other = name ∧ value.isTruthy = true then some value else none := by
  by_cases present : value.isTruthy = true <;> simp [truthyMember, present, lookup?]

/-- Nothing is lost when a value is kept only if it counts as present. -/
theorem NullOrPresent.getD_kept
    {value : Wire}
    (nullOrPresent : value.NullOrPresent) :
    (if value.isTruthy = true then some value else none).getD .null = value := by
  rcases nullOrPresent with rfl | present
  · rfl
  · rw [if_pos present, Option.getD_some]

end Wire

/-- A token with a canonical value and no empty description. -/
structure Token.Canonical (token : Token) : Prop where
  value : token.value.Canonical token.type
  description : token.description.NullOrPresent

namespace Node

mutual

/-- Every token of a tree is canonical, and no name is reserved for other tools. -/
def Canonical : Node → Prop
  | .token leaf => leaf.Canonical
  | .group members => CanonicalMembers members

/--
Every token below the members is canonical, and no name is reserved
for other tools.
-/
def CanonicalMembers : List (String × Node) → Prop
  | [] => True
  | (name, child) :: rest =>
      isReserved name = false ∧ Canonical child ∧ CanonicalMembers rest

end

end Node

/--
Modes are declared when there are trees, trees are labelled with names, all
trees are canonical, and the description is not empty.
-/
structure Collection.Canonical (collection : Collection) : Prop where
  modes : collection.tokens ≠ [] → collection.modes ≠ []
  labels : ∀ tree ∈ collection.tokens, ∃ name, tree.1 = .str name
  trees : ∀ tree ∈ collection.tokens, Node.CanonicalMembers tree.2
  description : collection.description.NullOrPresent

/-- Provenance without empty parts among those that may be absent. -/
structure Provenance.Canonical (provenance : Provenance) : Prop where
  fileKey : provenance.fileKey.NullOrPresent
  lastSynced : provenance.lastSynced.NullOrPresent

/-- Canonical collections and provenance, and no empty description. -/
structure Theme.Canonical (theme : Theme) : Prop where
  collections : ∀ collection ∈ theme.collections, collection.Canonical
  provenance : ∀ provenance, theme.provenance? = some provenance →
    provenance.Canonical
  description : theme.description.NullOrPresent

/-- The members of the form of a token with an encoded value. -/
def Token.formMembers (token : Token) (value : Wire) : List (String × Wire) :=
  [("$type", token.type), ("$value", value)] ++
    truthyMember "$description" token.description ++
    truthyMember "$extensions" (.obj token.extensions)

/-- A canonical token is written as an object. -/
theorem Token.encode_of_canonical
    {token : Token}
    (canonical : token.Canonical) :
    token.encode .standard = .ok (.obj (token.formMembers token.value.encode)) := by
  rw [encode, TokenValue.encodeValue_of_canonical canonical.value]
  rfl

/-- Extensions read as they are, whether they are left out or not. -/
theorem Token.extensionsOf_kept
    (extensions : List (String × Wire)) :
    extensionsOf
        ((if (Wire.obj extensions).isTruthy = true then some (Wire.obj extensions)
        else none).getD .null) =
      .ok extensions := by
  cases extensions <;> rfl

/-- A canonical token is read back from its form. -/
theorem Token.decode_formMembers
    {token : Token}
    (canonical : token.Canonical) :
    Token.decode .standard (.obj (token.formMembers token.value.encode)) =
      .ok token := by
  have valueRead := TokenValue.decodeValue_of_canonical canonical.value
  have descriptionRead := canonical.description.getD_kept
  have extensionsRead := Token.extensionsOf_kept token.extensions
  simp [-bind_pure_comp, decode, formMembers, Wire.require, Wire.getD_obj,
    Wire.lookup?, Wire.lookup?_append, Wire.lookup?_truthyMember, valueRead,
    descriptionRead, extensionsRead]
  rfl

namespace Node

/-- A reserved name is no name of a canonical member. -/
theorem not_mem_names_of_isReserved
    {name : String}
    {members : List (String × Node)}
    (reserved : isReserved name = true)
    (canonical : CanonicalMembers members) :
    name ∉ members.map Prod.fst := by
  induction members with
  | nil => simp
  | cons member rest inductionHypothesis =>
      obtain ⟨free, _, restCanonical⟩ := canonical
      intro isName
      rcases List.mem_cons.mp isName with rfl | inRest
      · rw [reserved] at free
        cases free
      · exact inductionHypothesis restCanonical inRest

/-- Forms under the names of canonical members do not look like a token. -/
theorem isTokenMembers_of_names
    {members : List (String × Node)}
    {forms : List (String × Wire)}
    (canonical : CanonicalMembers members)
    (sameNames : forms.map Prod.fst = members.map Prod.fst) :
    isTokenMembers forms = false := by
  have noType : "$type" ∉ forms.map Prod.fst := by
    rw [sameNames]
    exact not_mem_names_of_isReserved (by decide) canonical
  rw [isTokenMembers, Wire.has, Wire.lookup?_eq_none_iff.mpr noType]
  rfl

mutual

/-- A canonical node is written as an object and read back from it. -/
theorem exists_form
    (node : Node)
    (canonical : node.Canonical) :
    ∃ members,
      node.encode .standard = .ok (.obj members) ∧
        decode? .standard (.obj members) = .ok (some node) := by
  match node with
  | .token leaf =>
      refine ⟨leaf.formMembers leaf.value.encode,
        Token.encode_of_canonical canonical, ?_⟩
      have isToken : isTokenMembers (leaf.formMembers leaf.value.encode) = true :=
        rfl
      rw [decode?, if_pos isToken, Token.decode_formMembers canonical]
      rfl
  | .group members =>
      -- Without a reserved name among the forms, the object is not taken for a
      -- token.
      obtain ⟨forms, written, sameNames, readBack⟩ := exists_forms members canonical
      refine ⟨forms, ?_, ?_⟩
      · rw [encode, written]
        rfl
      · rw [decode?, isTokenMembers_of_names canonical sameNames, readBack]
        rfl

/-- Canonical members are written under their names and read back. -/
theorem exists_forms
    (members : List (String × Node))
    (canonical : CanonicalMembers members) :
    ∃ forms,
      encodeMembers .standard members = .ok forms ∧
        forms.map Prod.fst = members.map Prod.fst ∧
        decodeMembers .standard forms = .ok members := by
  match members with
  | [] => exact ⟨[], rfl, rfl, rfl⟩
  | (name, child) :: rest =>
      obtain ⟨free, childCanonical, restCanonical⟩ := canonical
      obtain ⟨inner, childWritten, childRead⟩ := exists_form child childCanonical
      obtain ⟨forms, restWritten, sameNames, restRead⟩ :=
        exists_forms rest restCanonical
      refine ⟨(name, .obj inner) :: forms, ?_, ?_, ?_⟩
      · rw [encodeMembers, childWritten, restWritten]
        rfl
      · rw [List.map_cons, List.map_cons, sameNames]
      · rw [decodeMembers, free, childRead, restRead]
        rfl

end

end Node

/-- The trees of a canonical collection are written and read back. -/
theorem Collection.exists_trees
    {collection : Collection}
    (canonical : collection.Canonical) :
    ∃ forms,
      encodeTrees .standard collection.tokens = .ok forms ∧
        (forms.mapM fun member => do
          let group ← Group.decode .standard member.2
          return (Wire.str member.1, group)) = .ok collection.tokens := by
  refine mapM_roundTrip (fun tree isTree => ?_)
  obtain ⟨label, group⟩ := tree
  obtain ⟨name, isName⟩ := canonical.labels _ isTree
  obtain ⟨forms, written, _, readBack⟩ :=
    Node.exists_forms group (canonical.trees _ isTree)
  obtain rfl : label = .str name := isName
  refine ⟨(name, .obj forms), ?_, ?_⟩
  · simp [-bind_pure_comp, Group.encode, written, Except.map, Wire.memberName]
    rfl
  · simp [-bind_pure_comp, Group.decode, membersOf, readBack]
    rfl

/-- The members of the form of a collection with encoded trees. -/
def Collection.formMembers
    (collection : Collection)
    (trees : List (String × Wire)) :
    List (String × Wire) :=
  [ ("name", collection.name),
    ("modes", .list collection.modes),
    ("defaultMode", collection.defaultMode),
    ("tokens", .obj trees) ] ++
    truthyMember "description" collection.description

/--
The modes of a canonical collection are read back, or are missing
together with the trees.
-/
theorem Collection.decodeModes_formMembers
    {collection : Collection}
    (canonical : collection.Canonical)
    {trees : List (String × Wire)}
    (written : encodeTrees .standard collection.tokens = .ok trees) :
    decodeModes (.obj (collection.formMembers trees)) = .ok collection.modes := by
  cases areModes : collection.modes with
  | nil =>
      have noTokens : collection.tokens = [] :=
        Classical.byContradiction
          (fun someTokens => canonical.modes someTokens areModes)
      rw [noTokens] at written
      obtain rfl : [] = trees := Except.ok.inj written
      simp [-bind_pure_comp, decodeModes, formMembers, areModes, Wire.getD_obj,
        Wire.lookup?, Wire.isTruthy, membersOf]
      rfl
  | cons first rest =>
      simp [decodeModes, formMembers, areModes, Wire.getD_obj, Wire.lookup?,
        Wire.isTruthy, Wire.parts]

/-- A canonical collection is written and read back. -/
theorem Collection.exists_form
    {collection : Collection}
    (canonical : collection.Canonical) :
    ∃ form,
      collection.encode .standard = .ok form ∧
        Collection.decode .standard form = .ok collection := by
  obtain ⟨trees, written, readBack⟩ := Collection.exists_trees canonical
  refine ⟨.obj (collection.formMembers trees), ?_, ?_⟩
  · rw [encode, written]
    rfl
  · have modesRead := decodeModes_formMembers canonical written
    have descriptionRead := canonical.description.getD_kept
    rw [decode, modesRead]
    simp [-bind_pure_comp, formMembers, Wire.require, Wire.getD_obj, Wire.lookup?,
      Wire.lookup?_truthyMember, membersOf, readBack, descriptionRead]
    rfl

/-- Canonical provenance is read back from its form. -/
theorem Provenance.decode_encode
    {provenance : Provenance}
    (canonical : provenance.Canonical) :
    Provenance.decode provenance.encode = .ok provenance := by
  have fileKeyRead := canonical.fileKey.getD_kept
  have lastSyncedRead := canonical.lastSynced.getD_kept
  simp [-bind_pure_comp, decode, encode, Wire.object, Wire.getD_obj, Wire.lookup?,
    Wire.lookup?_append, Wire.lookup?_truthyMember, fileKeyRead, lastSyncedRead]
  rfl

namespace Theme

/-- The members of the form of a theme with encoded collections. -/
def formMembers
    (theme : Theme)
    (collections : List Wire) :
    List (String × Wire) :=
  [("name", theme.name)] ++
    truthyMember "description" theme.description ++
    [("collections", .list collections)] ++
    (match theme.provenance? with
     | some provenance => [("meta", provenance.encode)]
     | none => [])

/-- A canonical theme is written and read back. -/
theorem exists_form
    {theme : Theme}
    (canonical : theme.Canonical) :
    ∃ form,
      theme.encode .standard = .ok form ∧
        Theme.decode .standard form = .ok theme := by
  obtain ⟨forms, written, readBack⟩ :=
    mapM_roundTrip (fun collection isCollection =>
      Collection.exists_form (canonical.collections collection isCollection))
  refine ⟨.obj (theme.formMembers forms), ?_, ?_⟩
  · rw [encode, written]
    rfl
  · have descriptionRead := canonical.description.getD_kept
    rcases theme with ⟨name, collections, _ | provenance, description⟩
    · simp [-bind_pure_comp, decode, formMembers, Wire.require, Wire.getD_obj,
        Wire.lookup?, Wire.lookup?_append, Wire.lookup?_truthyMember, Wire.parts,
        readBack, descriptionRead]
      rfl
    · have provenanceRead :=
        Provenance.decode_encode (canonical.provenance provenance rfl)
      simp [-bind_pure_comp, decode, formMembers, Wire.require, Wire.getD_obj,
        Wire.lookup?, Wire.lookup?_append, Wire.lookup?_truthyMember, Wire.parts,
        readBack, descriptionRead, provenanceRead]
      rfl

/--
Writing a canonical theme succeeds, and reading its document
gives the theme back.
-/
theorem decode_encode_of_canonical
    {theme : Theme}
    (canonical : theme.Canonical) :
    (theme.encode .standard >>= Theme.decode .standard) = .ok theme := by
  obtain ⟨form, written, readBack⟩ := exists_form canonical
  rw [written, ok_bind, readBack]

/-- A theme with a nested group, a reference, shadow layers and keyframes. -/
def brand : Theme where
  name := .str "brand"
  collections :=
    [ { name := .str "base"
        modes := [.str "light", .str "dark"]
        defaultMode := .str "dark"
        tokens :=
          [ (.str "light",
              [ ("color",
                  .group
                    [ ("ink",
                        .token
                          (.plain "color"
                            (.color ⟨.int 0, .int 0, .int 0, .int 1⟩))),
                      ("link",
                        .token (.plain "color" (.reference ⟨"color.ink"⟩))) ]),
                ("raised",
                  .token (.plain "shadow"
                    (.shadows
                      [⟨.px 0.0, .px 1.0, .px 2.0, .ofFloats 0.0 0.0 0.0 0.5, none,
                        .bool true⟩]))),
                ("appear",
                  .token (.plain "keyframes"
                    (.keyframes
                      ⟨[⟨"from", [("opacity", .int 0)]⟩,
                        ⟨"to", [("opacity", .int 1)]⟩]⟩))) ]) ]
        description := .null } ]
  provenance? := some (.ofSource "manual")
  description := .str "Brand"

/-- The sample theme is canonical and is read back from its document. -/
theorem decode_encode_brand :
    brand.Canonical ∧
      (brand.encode .standard >>= Theme.decode .standard) = .ok brand := by
  have canonical : brand.Canonical := {
    collections := by
      intro collection isCollection
      obtain rfl := List.mem_singleton.mp isCollection
      refine ⟨by simp, ?_, ?_, .inl rfl⟩
      · intro tree isTree
        obtain rfl := List.mem_singleton.mp isTree
        exact ⟨"light", rfl⟩
      · intro tree isTree
        obtain rfl := List.mem_singleton.mp isTree
        refine ⟨by decide +kernel,
          ⟨by decide +kernel, ⟨.color _, .inl rfl⟩, by decide +kernel,
            ⟨.reference (by decide +kernel), .inl rfl⟩, trivial⟩, by decide +kernel,
          ⟨.shadows ?_, .inl rfl⟩, by decide +kernel, ⟨.keyframes ?_, .inl rfl⟩,
          trivial⟩
        · intro layer isLayer
          obtain rfl := List.mem_singleton.mp isLayer
          exact ⟨true, rfl⟩
        · exact ⟨by decide, by simp, by decide⟩
    provenance := by
      rintro provenance isProvenance
      obtain rfl := Option.some.inj isProvenance
      exact ⟨.inl rfl, .inl rfl⟩
    description := .inr rfl }
  exact ⟨canonical, decode_encode_of_canonical canonical⟩

end Theme

end DesignTokens
