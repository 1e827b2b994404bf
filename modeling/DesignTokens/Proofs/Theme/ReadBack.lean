import DesignTokens.Proofs.Theme.NormalForm
import DesignTokens.Theme.Lookup

namespace DesignTokens

/-!
# Themes that are read back

Where a theme is the result of reading its own document, nothing in it was lost:
no segment of a path is reserved for other tools, and every token is the result
of reading its own form.
-/

/-- The theme is the result of reading its own document. -/
def Theme.ReadBack (theme : Theme) : Prop :=
  (theme.encode .standard >>= Theme.decode .standard) = .ok theme

/-- The token is the result of reading its own form. -/
def Token.ReadBack (token : Token) : Prop :=
  (token.encode .standard >>= Token.decode .standard) = .ok token

/-- A token that is read back, at a path without reserved segments. -/
structure Entries.Recorded (path : TokenPath) (token : Token) : Prop where
  free : ∀ segment ∈ path, Node.isReserved segment = false
  token : token.ReadBack

theorem Theme.Canonical.readBack
    {theme : Theme}
    (canonical : theme.Canonical) :
    theme.ReadBack := by
  obtain ⟨form, written, read⟩ := Theme.exists_form canonical
  rw [Theme.ReadBack, written, ok_bind, read]

/--
A value that is read back is canonical, when it does not look like a
reference in braces.
-/
theorem TokenValue.canonical_of_readBack
    {tag : Wire}
    {value : TokenValue}
    {form : Wire}
    (written : Registry.standard.encodeValue tag value = .ok form)
    (readBack : Registry.standard.decodeValue tag form = .ok value)
    (bare :
      ∀ text, Wire.lookup? "$ref" form.members = some (.str text) →
        ¬ Reference.Braced (Reference.ofText text).path) :
    value.Canonical tag := by
  have canonical : value.normal.Canonical tag :=
    canonical_normal_of_decodeValue readBack bare
  have sameForm : .ok value.normal.encode = (.ok form : Except Failure Wire) := by
    rw [← encodeValue_of_canonical canonical, encodeValue_normal, written]
  have isNormal : value.normal = value := by
    have normalRead := decodeValue_of_canonical canonical
    rw [Except.ok.inj sameForm, readBack] at normalRead
    exact (Except.ok.inj normalRead).symm
  rwa [isNormal] at canonical

/--
The value of a token that is read back is read back under the type of the token.
-/
theorem Token.ReadBack.exists_form
    {token : Token}
    (readBack : token.ReadBack) :
    ∃ form,
      Registry.standard.encodeValue token.type token.value = .ok form ∧
        Registry.standard.decodeValue token.type form = .ok token.value := by
  obtain ⟨form, written, read⟩ := bind_eq_ok_iff.mp readBack
  obtain ⟨value, valueWritten, isForm⟩ := bind_eq_ok_iff.mp written
  obtain rfl := pure_eq_ok_iff.mp isForm
  refine ⟨value, valueWritten, ?_⟩
  simp only [decode, bind_eq_ok_iff, pure_eq_ok_iff, lift_eq_ok_iff] at read
  obtain ⟨type, isType, valueData, isValue, back, valueRead, _, _, _, _, _, _,
      isToken⟩ := read
  have sameType : type = token.type := congrArg Token.type isToken
  have sameValue : back = token.value := congrArg Token.value isToken
  have sameData : valueData = value := by
    simpa [Wire.require, Wire.lookup?, Wire.object] using isValue.symm
  rwa [sameType, sameValue, sameData] at valueRead

/-- The form of keyframes does not look like a reference to a path. -/
theorem Keyframes.notReference_encode
    (keyframes : Keyframes)
    (text : String) :
    Wire.lookup? "$ref" keyframes.encode.members ≠ some (.str text) := by
  intro isReference
  obtain ⟨step, _, isMember⟩ :=
    List.mem_map.mp (Wire.mem_of_mem_ofMembers (mem_of_lookup? isReference))
  cases congrArg Prod.snd isMember

theorem TokenValue.Canonical.keyframes_canonical
    {tag : Wire}
    {steps : Keyframes}
    (canonical : TokenValue.Canonical tag (.keyframes steps)) :
    steps.Canonical := by
  cases canonical with
  | keyframes stepsCanonical => exact stepsCanonical

/-- Keyframes that are read back are canonical. -/
theorem Token.ReadBack.canonical_keyframes
    {token : Token}
    (readBack : token.ReadBack)
    (isType : token.type = .str Handler.keyframes.tag)
    {steps : Keyframes}
    (isValue : token.value = .keyframes steps) :
    steps.Canonical := by
  obtain ⟨form, written, read⟩ := readBack.exists_form
  rw [isType, isValue] at written read
  have asKeyframes :
      Registry.standard.encodeValue (.str Handler.keyframes.tag)
        (.keyframes steps) = .ok steps.encode :=
    Registry.encodeValue_builtin (by simp [Handler.builtins]) rfl
  obtain rfl := Except.ok.inj (asKeyframes.symm.trans written)
  have canonical := TokenValue.canonical_of_readBack written read
    fun text isReference => (steps.notReference_encode text isReference).elim
  exact canonical.keyframes_canonical

namespace Node

/-- Reading members adds none. -/
theorem length_decodeMembers_le
    {forms : List (String × Wire)}
    {members : List (String × Node)}
    (read : decodeMembers .standard forms = .ok members) :
    members.length ≤ forms.length := by
  induction forms generalizing members with
  | nil =>
      obtain rfl := Except.ok.inj read
      simp
  | cons form rest inductionHypothesis =>
      obtain ⟨name, data⟩ := form
      rw [decodeMembers] at read
      split at read
      · exact Nat.le_succ_of_le (inductionHypothesis read)
      · obtain ⟨node?, _, afterNode⟩ := bind_eq_ok_iff.mp read
        cases node? with
        | none => exact Nat.le_succ_of_le (inductionHypothesis afterNode)
        | some node =>
            obtain ⟨nodes, restRead, joined⟩ := bind_eq_ok_iff.mp afterNode
            obtain rfl := pure_eq_ok_iff.mp joined
            exact Nat.succ_le_succ (inductionHypothesis restRead)

theorem length_of_encodeMembers
    {members : List (String × Node)}
    {forms : List (String × Wire)}
    (written : encodeMembers .standard members = .ok forms) :
    forms.length = members.length := by
  induction members generalizing forms with
  | nil =>
      obtain rfl := Except.ok.inj written
      rfl
  | cons member rest inductionHypothesis =>
      obtain ⟨_, _, afterForm⟩ := bind_eq_ok_iff.mp written
      obtain ⟨restForms, restWritten, joined⟩ := bind_eq_ok_iff.mp afterForm
      obtain rfl := pure_eq_ok_iff.mp joined
      rw [List.length_cons, List.length_cons, inductionHypothesis restWritten]

/--
A first member that is read back has a name of its own, and so has what
comes behind it.
-/
theorem readBack_cons
    {name : String}
    {child : Node}
    {rest : List (String × Node)}
    {form : Wire}
    {forms : List (String × Wire)}
    (restWritten : encodeMembers .standard rest = .ok forms)
    (read : decodeMembers .standard ((name, form) :: forms) =
      .ok ((name, child) :: rest)) :
    isReserved name = false ∧
      decode? .standard form = .ok (some child) ∧
      decodeMembers .standard forms = .ok rest := by
  -- The forms behind the first one are too few to be read as all members.
  have tooFew : decodeMembers .standard forms ≠ .ok ((name, child) :: rest) := by
    intro allRead
    have bound := length_decodeMembers_le allRead
    rw [length_of_encodeMembers restWritten, List.length_cons] at bound
    omega
  rw [decodeMembers] at read
  split at read
  · exact (tooFew read).elim
  · rename_i notReserved
    obtain ⟨node?, formRead, afterNode⟩ := bind_eq_ok_iff.mp read
    cases node? with
    | none => exact (tooFew afterNode).elim
    | some node =>
        obtain ⟨nodes, restRead, joined⟩ := bind_eq_ok_iff.mp afterNode
        cases pure_eq_ok_iff.mp joined
        exact ⟨eq_false_of_ne_true notReserved, formRead, restRead⟩

mutual

/-- Every token of a node that is read back is recorded. -/
theorem recorded_of_readBack
    (node : Node)
    {form : Wire}
    (written : node.encode .standard = .ok form)
    (read : decode? .standard form = .ok (some node)) :
    ∀ entry ∈ node.walk, Entries.Recorded entry.1 entry.2 := by
  match node with
  | .token leaf =>
      rintro entry isEntry
      obtain rfl := List.mem_singleton.mp isEntry
      refine ⟨fun _ isSegment => (List.not_mem_nil isSegment).elim, ?_⟩
      rw [encode] at written
      cases form with
      | obj members =>
          rw [decode?] at read
          split at read
          · obtain ⟨token, tokenRead, isToken⟩ := map_eq_ok_iff.mp read
            cases isToken
            rw [Token.ReadBack, written, ok_bind, tokenRead]
          · obtain ⟨_, _, isGroup⟩ := map_eq_ok_iff.mp read
            cases isGroup
      | _ => cases read
  | .group members =>
      rw [encode] at written
      obtain ⟨forms, membersWritten, rfl⟩ := map_eq_ok_iff.mp written
      rw [decode?] at read
      split at read
      · obtain ⟨_, _, isToken⟩ := map_eq_ok_iff.mp read
        cases isToken
      · obtain ⟨nodes, membersRead, isGroup⟩ := map_eq_ok_iff.mp read
        cases isGroup
        exact recorded_of_membersReadBack members membersWritten membersRead

theorem recorded_of_membersReadBack
    (members : List (String × Node))
    {forms : List (String × Wire)}
    (written : encodeMembers .standard members = .ok forms)
    (read : decodeMembers .standard forms = .ok members) :
    ∀ entry ∈ walkMembers members, Entries.Recorded entry.1 entry.2 := by
  match members with
  | [] => exact fun _ isEntry => by cases isEntry
  | (name, child) :: rest =>
      rw [encodeMembers] at written
      obtain ⟨childForm, childWritten, afterChild⟩ := bind_eq_ok_iff.mp written
      obtain ⟨restForms, restWritten, joined⟩ := bind_eq_ok_iff.mp afterChild
      obtain rfl := pure_eq_ok_iff.mp joined
      obtain ⟨free, childRead, restRead⟩ := readBack_cons restWritten read
      rw [walkMembers, List.forall_mem_append]
      refine ⟨fun entry isEntry => ?_,
        recorded_of_membersReadBack rest restWritten restRead⟩
      obtain ⟨inner, isInner, rfl⟩ := List.mem_map.mp isEntry
      have recorded :=
        recorded_of_readBack child childWritten childRead inner isInner
      exact ⟨List.forall_mem_cons.mpr ⟨free, recorded.free⟩, recorded.token⟩

end

end Node

theorem Collection.recorded_of_readBack
    {collection : Collection}
    {form : Wire}
    (written : collection.encode .standard = .ok form)
    (read : Collection.decode .standard form = .ok collection)
    {tree : Label × Group}
    (isTree : tree ∈ collection.tokens) :
    ∀ entry ∈ tree.2.walk, Entries.Recorded entry.1 entry.2 := by
  obtain ⟨trees, treesWritten, isForm⟩ := bind_eq_ok_iff.mp written
  obtain rfl := pure_eq_ok_iff.mp isForm
  simp only [decode, bind_eq_ok_iff, pure_eq_ok_iff, lift_eq_ok_iff] at read
  obtain ⟨modes, _, name, _, defaultMode, _, treesData, areTrees, members,
      areMembers, back, treesRead, description, _, isCollection⟩ := read
  have sameTrees : back = collection.tokens :=
    congrArg Collection.tokens isCollection
  have sameData : treesData = .obj trees := by
    simpa [Wire.object, Wire.getD_obj, Wire.lookup?] using areTrees.symm
  subst sameData
  obtain rfl := Except.ok.inj areMembers
  rw [sameTrees] at treesRead
  obtain ⟨member, memberWritten, memberRead⟩ :=
    exists_of_mapM_roundTrip treesWritten treesRead isTree
  obtain ⟨groupForm, groupWritten, afterGroup⟩ := bind_eq_ok_iff.mp memberWritten
  obtain ⟨label, _, isMember⟩ := bind_eq_ok_iff.mp afterGroup
  obtain rfl := pure_eq_ok_iff.mp isMember
  obtain ⟨group, groupRead, isTreeOf⟩ := bind_eq_ok_iff.mp memberRead
  cases pure_eq_ok_iff.mp isTreeOf
  obtain ⟨forms, membersWritten, rfl⟩ := map_eq_ok_iff.mp groupWritten
  exact Node.recorded_of_membersReadBack group membersWritten groupRead

theorem Theme.ReadBack.recorded
    {theme : Theme}
    (readBack : theme.ReadBack)
    {located : Located}
    (isLocated : located ∈ theme.walk) :
    Entries.Recorded located.path located.token := by
  obtain ⟨isCollection, tree, isTree, visited⟩ := Theme.mem_walk_iff.mp isLocated
  obtain ⟨form, written, read⟩ := bind_eq_ok_iff.mp readBack
  obtain ⟨forms, collectionsWritten, isForm⟩ := bind_eq_ok_iff.mp written
  obtain rfl := pure_eq_ok_iff.mp isForm
  obtain ⟨collectionsData, parts, areCollections, areParts, collectionsRead⟩ :=
    collections_of_decode read
  have sameData : collectionsData = .list forms := by
    simpa [Wire.object, Wire.getD_obj, Wire.lookup?, Wire.lookup?_append,
      Wire.lookup?_truthyMember] using areCollections.symm
  subst sameData
  obtain rfl := Except.ok.inj areParts
  obtain ⟨collectionForm, collectionWritten, collectionRead⟩ :=
    exists_of_mapM_roundTrip collectionsWritten collectionsRead isCollection
  exact Collection.recorded_of_readBack collectionWritten collectionRead isTree
    _ visited

theorem Provenance.canonical_of_readBack
    {provenance : Provenance}
    (readBack : Provenance.decode provenance.encode = .ok provenance) :
    provenance.Canonical := by
  have normalRead := Provenance.decode_encode provenance.canonical_normal
  rw [encode_normal, readBack] at normalRead
  rw [Except.ok.inj normalRead]
  exact provenance.canonical_normal

/-- The provenance of a theme that is read back is canonical. -/
theorem Theme.ReadBack.canonical_provenance
    {theme : Theme}
    (readBack : theme.ReadBack)
    {provenance : Provenance}
    (isThere : theme.provenance? = some provenance) :
    provenance.Canonical := by
  obtain ⟨form, written, read⟩ := bind_eq_ok_iff.mp readBack
  obtain ⟨forms, _, isForm⟩ := bind_eq_ok_iff.mp written
  obtain rfl := pure_eq_ok_iff.mp isForm
  simp only [decode, bind_eq_ok_iff, lift_eq_ok_iff] at read
  obtain ⟨data, isData, _, _, _, _, _, _, _, _, read⟩ := read
  have sameData : data = provenance.encode := by
    simpa [isThere, Wire.object, Wire.getD_obj, Wire.lookup?, Wire.lookup?_append,
      Wire.lookup?_truthyMember] using isData.symm
  subst sameData
  have isPresent : provenance.encode.isTruthy = true := rfl
  simp only [if_pos isPresent, bind_eq_ok_iff, pure_eq_ok_iff,
    lift_eq_ok_iff] at read
  obtain ⟨back, provenanceRead, _, rfl, _, _, isTheme⟩ := read
  have isBack : some back = some provenance :=
    (congrArg Theme.provenance? isTheme).trans isThere
  rw [Option.some.inj isBack] at provenanceRead
  exact Provenance.canonical_of_readBack provenanceRead

end DesignTokens
