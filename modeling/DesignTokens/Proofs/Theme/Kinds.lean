import DesignTokens.Proofs.Registry.Kinds
import DesignTokens.Theme.Codec

namespace DesignTokens

/-!
# Kinds of parts in themes

A document of a theme asks its parts for members at each level: the theme, what
is told of its origin, the collections, the trees of the modes, and the values of
the tokens.  When objects stand in all these places, reading the document fails in
a foreseen way.
-/

open Registry (standard)

/-! Tokens and groups. -/

namespace Token

/-- Whether the value of a token has objects where its type asks for members. -/
def hasObjects (members : List (String × Wire)) : Bool :=
  match Wire.lookup? "$type" members, Wire.lookup? "$value" members with
  | some tag, some data => Registry.hasObjects tag data
  | _, _ => true

theorem failsOnly_pairOf
    {inVain : Prop}
    (data : Wire) :
    FailsOnly (Foreseen inVain) (pairOf data) := by
  refine data.failsOnly_parts.bind fun parts _ => ?_
  split
  · rename_i key value
    refine FailsOnly.bind ?_ fun name _ => failsOnly_pure _
    unfold Wire.memberName
    split
    · exact failsOnly_ok _
    · exact failsOnly_ok _
    · exact failsOnly_ok _
    · split
      · exact failsOnly_ok _
      · exact failsOnly_error_iff.mpr (.inl rfl)
  · exact failsOnly_error_iff.mpr (.inl rfl)

theorem failsOnly_extensionsOf
    {inVain : Prop}
    (data : Wire) :
    FailsOnly (Foreseen inVain) (extensionsOf data) := by
  unfold extensionsOf
  split
  · exact failsOnly_ok _
  · exact failsOnly_ok _
  · refine (Wire.failsOnly_parts _).bind fun parts _ => ?_
    exact (failsOnly_mapM fun pair _ => failsOnly_pairOf pair).bind fun pairs _ =>
      failsOnly_pure _

theorem lookup?_of_require
    {name : String}
    {members : List (String × Wire)}
    {value : Wire}
    (isThere : (liftM ((Wire.obj members).require name) : Except Failure Wire) =
      .ok value) :
    Wire.lookup? name members = some value := by
  obtain ⟨_, isSame, isFound⟩ := Wire.require_eq_ok (lift_eq_ok_iff.mp isThere)
  rwa [Wire.obj.inj isSame]

theorem failsOnly_decode
    (members : List (String × Wire)) :
    FailsOnly (ForeseenFailure (hasObjects members = false))
      (decode standard (.obj members)) := by
  have isObject : (Wire.obj members).isObject = true := rfl
  refine (Wire.failsOnly_require _ "$type").foreseen.bind fun tag isTag => ?_
  refine (Wire.failsOnly_require _ "$value").foreseen.bind fun data isData => ?_
  refine FailsOnly.bind ?_ fun value _ => ?_
  · have isSame : hasObjects members = Registry.hasObjects tag data := by
      rw [hasObjects, lookup?_of_require isTag, lookup?_of_require isData]
    rw [isSame]
    exact Registry.failsOnly_decodeValue_standard tag data
  · refine (Wire.failsOnly_getD_of_isObject isObject "$description" _).foreseen.bind
      fun description _ => ?_
    refine (Wire.failsOnly_getD_of_isObject isObject "$extensions" _).foreseen.bind
      fun extensionsData _ => ?_
    exact (failsOnly_extensionsOf extensionsData).foreseen.bind fun extensions _ =>
      failsOnly_pure _

theorem hasObjects_of_decode
    {members : List (String × Wire)}
    {token : Token}
    (isRead : decode standard (.obj members) = .ok token) :
    hasObjects members = true := by
  obtain ⟨tag, isTag, afterTag⟩ := bind_eq_ok_iff.mp isRead
  obtain ⟨data, isData, afterData⟩ := bind_eq_ok_iff.mp afterTag
  obtain ⟨_, isValue, _⟩ := bind_eq_ok_iff.mp afterData
  rw [hasObjects, lookup?_of_require isTag, lookup?_of_require isData]
  exact Registry.hasObjects_of_decodeValue isValue

end Token

namespace Node

mutual

/--
Whether all tokens below a member of a group have objects where their types
ask for members.
-/
def hasObjects : Wire → Bool
  | .obj members =>
      if isTokenMembers members then Token.hasObjects members
      else haveObjects members
  | _ => true

/-- Whether all tokens of a group have objects where their types ask for members. -/
def haveObjects : List (String × Wire) → Bool
  | [] => true
  | (name, form) :: rest => (isReserved name || hasObjects form) && haveObjects rest

end

mutual

theorem failsOnly_decode? :
    ∀ data : Wire,
      FailsOnly (ForeseenFailure (hasObjects data = false)) (decode? standard data)
  | .obj members => by
      rw [decode?, hasObjects]
      split
      · exact (Token.failsOnly_decode members).map _
      · exact (failsOnly_decodeMembers members).map _
  | .null | .bool _ | .int _ | .float _ | .str _ | .list _ => failsOnly_ok _

theorem failsOnly_decodeMembers :
    ∀ members : List (String × Wire),
      FailsOnly (ForeseenFailure (haveObjects members = false))
        (decodeMembers standard members)
  | [] => failsOnly_ok _
  | (name, form) :: rest => by
      have later :
          FailsOnly (ForeseenFailure (haveObjects ((name, form) :: rest) = false))
            (decodeMembers standard rest) :=
        (failsOnly_decodeMembers rest).mono fun failure foreseen =>
          foreseen.mono fun notLater => by
          rw [haveObjects, notLater, Bool.and_false]
      rw [decodeMembers]
      split
      · exact later
      · rename_i notReserved
        refine FailsOnly.bind ?_ fun node? _ => ?_
        · refine (failsOnly_decode? form).mono fun failure foreseen =>
            foreseen.mono fun notHere => ?_
          rw [haveObjects, notHere, Bool.eq_false_iff.mpr notReserved]
          rfl
        · split
          · exact later.bind fun nodes _ => failsOnly_pure _
          · exact later

end

mutual

theorem hasObjects_of_decode? :
    ∀ (data : Wire) (node? : Option Node), decode? standard data = .ok node? →
      hasObjects data = true
  | .obj members, node?, isRead => by
      rw [decode?] at isRead
      rw [hasObjects]
      split
      · rename_i isToken
        rw [if_pos isToken] at isRead
        obtain ⟨_, isTokenRead, _⟩ := map_eq_ok_iff.mp isRead
        exact Token.hasObjects_of_decode isTokenRead
      · rename_i notToken
        rw [if_neg notToken] at isRead
        obtain ⟨nodes, areRead, _⟩ := map_eq_ok_iff.mp isRead
        exact haveObjects_of_decodeMembers members nodes areRead
  | .null, _, _ | .bool _, _, _ | .int _, _, _ | .float _, _, _ | .str _, _,
    _ | .list _, _, _ => rfl

theorem haveObjects_of_decodeMembers :
    ∀ (members : List (String × Wire)) (nodes : List (String × Node)),
      decodeMembers standard members = .ok nodes → haveObjects members = true
  | [], _, _ => rfl
  | (name, form) :: rest, nodes, areRead => by
      rw [decodeMembers] at areRead
      rw [haveObjects]
      split at areRead
      · rename_i reserved
        rw [reserved, haveObjects_of_decodeMembers rest nodes areRead]
        rfl
      · obtain ⟨node?, isRead, afterNode⟩ := bind_eq_ok_iff.mp areRead
        have isLater : haveObjects rest = true := by
          split at afterNode
          · obtain ⟨later, areLater, _⟩ := bind_eq_ok_iff.mp afterNode
            exact haveObjects_of_decodeMembers rest later areLater
          · exact haveObjects_of_decodeMembers rest nodes afterNode
        rw [hasObjects_of_decode? form node? isRead, isLater, Bool.or_true]
        rfl

end

end Node

/-! Collections and themes. -/

/--
Whether a tree is an object whose tokens have objects where their types
ask for members.
-/
def Group.hasObjects (data : Wire) : Bool :=
  data.isObject && Node.haveObjects data.members

theorem Group.failsOnly_decode
    (data : Wire) :
    FailsOnly (ForeseenFailure (Group.hasObjects data = false))
      (Group.decode standard data) := by
  cases data with
  | obj members => exact Node.failsOnly_decodeMembers members
  | _ => exact failsOnly_error_iff.mpr (.inr ⟨rfl, _, _, rfl⟩)

theorem Group.hasObjects_of_decode
    {data : Wire}
    {group : Group}
    (isRead : Group.decode standard data = .ok group) :
    Group.hasObjects data = true := by
  obtain ⟨members, areMembers, areRead⟩ := bind_eq_ok_iff.mp isRead
  cases data with
  | obj own =>
      obtain rfl := Except.ok.inj (lift_eq_ok_iff.mp areMembers)
      exact Node.haveObjects_of_decodeMembers own group areRead
  | _ => cases areMembers

/-- The trees of a collection as its document holds them. -/
def Collection.treesOf (data : Wire) : Wire :=
  (Wire.lookup? "tokens" data.members).getD (.obj [])

/--
Whether a collection is an object that lists trees by mode, and the trees have
objects where members are asked for.
-/
def Collection.hasObjects (data : Wire) : Bool :=
  data.isObject && (treesOf data).isObject &&
    (treesOf data).members.all (fun tree => Group.hasObjects tree.2)

theorem Wire.failsOnly_membersOf
    (operation : String)
    (data : Wire) :
    FailsOnly (Foreseen (data.isObject = false)) (membersOf operation data) := by
  cases data with
  | obj members => exact failsOnly_ok _
  | _ => exact failsOnly_error_iff.mpr (.inr ⟨rfl, _, _, rfl⟩)

theorem Wire.members_of_membersOf
    {operation : String}
    {data : Wire}
    {members : List (String × Wire)}
    (areListed : membersOf operation data = .ok members) :
    data.members = members := by
  cases data with
  | obj _ => exact Except.ok.inj areListed
  | _ => cases areListed

section Collections

variable {members : List (String × Wire)}

/-- Trees that are there are those that a collection asks for. -/
theorem Collection.eq_treesOf
    {trees : Wire}
    (isThere : (Wire.obj members).getD "tokens" (.obj []) = .ok trees) :
    trees = treesOf (.obj members) := by
  rw [Wire.getD_obj] at isThere
  exact (Except.ok.inj isThere).symm

theorem Collection.failsOnly_decodeModes :
    FailsOnly (Foreseen ((treesOf (.obj members)).isObject = false))
      (decodeModes (.obj members)) := by
  have isObject : (Wire.obj members).isObject = true := rfl
  refine (Wire.failsOnly_getD_of_isObject isObject "modes" _).bind fun modes _ => ?_
  split
  · exact modes.failsOnly_parts
  · refine (Wire.failsOnly_getD_of_isObject isObject "tokens" _).bind
      fun trees isTrees => ?_
    rw [← eq_treesOf isTrees]
    exact (Wire.failsOnly_membersOf "keys" trees).bind fun names _ =>
      failsOnly_pure _

end Collections

theorem Collection.failsOnly_decode
    (data : Wire) :
    FailsOnly (ForeseenFailure (Collection.hasObjects data = false))
      (Collection.decode standard data) := by
  cases data with
  | obj members =>
      have isObject : (Wire.obj members).isObject = true := rfl
      have ofTrees (notObject : (treesOf (.obj members)).isObject = false) :
          Collection.hasObjects (.obj members) = false := by
        rw [hasObjects, notObject, Bool.and_false, Bool.false_and]
      refine FailsOnly.bind ?_ fun modes _ => ?_
      · exact failsOnly_decodeModes.foreseen.mono fun failure foreseen =>
          foreseen.mono ofTrees
      refine (Wire.failsOnly_require _ "name").foreseen.bind fun name _ => ?_
      refine (Wire.failsOnly_getD_of_isObject isObject "defaultMode"
        _).foreseen.bind fun defaultMode _ => ?_
      refine (Wire.failsOnly_getD_of_isObject isObject "tokens" _).foreseen.bind
        fun trees isTrees => ?_
      obtain rfl := eq_treesOf (lift_eq_ok_iff.mp isTrees)
      refine FailsOnly.bind ?_ fun named isNamed => ?_
      · exact (Wire.failsOnly_membersOf "items" _).foreseen.mono
          fun failure foreseen =>
            foreseen.mono ofTrees
      refine FailsOnly.bind (failsOnly_mapM fun tree isTree => ?_) fun groups _ =>
        ?_
      · refine FailsOnly.bind ?_ fun group _ => failsOnly_pure _
        refine (Group.failsOnly_decode tree.2).mono fun failure foreseen =>
          foreseen.mono fun notHere => ?_
        refine Bool.eq_false_iff.mpr fun areObjects => ?_
        rw [← Wire.members_of_membersOf (lift_eq_ok_iff.mp isNamed)] at isTree
        have isGroup :=
          List.all_eq_true.mp (Bool.and_eq_true_iff.mp areObjects).2 tree isTree
        cases isGroup.symm.trans notHere
      · exact (Wire.failsOnly_getD_of_isObject isObject "description"
          _).foreseen.bind fun description _ => failsOnly_pure _
  | _ => exact failsOnly_error_iff.mpr (.inr ⟨rfl, _, _, rfl⟩)

theorem Collection.hasObjects_of_decode
    {data : Wire}
    {collection : Collection}
    (isRead : Collection.decode standard data = .ok collection) :
    Collection.hasObjects data = true := by
  obtain ⟨_, _, afterModes⟩ := bind_eq_ok_iff.mp isRead
  obtain ⟨_, isName, afterName⟩ := bind_eq_ok_iff.mp afterModes
  obtain ⟨_, _, afterDefault⟩ := bind_eq_ok_iff.mp afterName
  obtain ⟨trees, isTrees, afterTrees⟩ := bind_eq_ok_iff.mp afterDefault
  obtain ⟨named, isNamed, afterNamed⟩ := bind_eq_ok_iff.mp afterTrees
  obtain ⟨_, areRead, _⟩ := bind_eq_ok_iff.mp afterNamed
  rw [lift_eq_ok_iff] at isName isTrees isNamed
  obtain ⟨members, rfl, _⟩ := Wire.require_eq_ok isName
  obtain rfl := eq_treesOf isTrees
  have isObject : (treesOf (.obj members)).isObject = true := by
    cases isKind : treesOf (.obj members) with
    | obj _ => rfl
    | _ =>
        rw [isKind] at isNamed
        cases isNamed
  rw [hasObjects, isObject, Wire.members_of_membersOf isNamed]
  refine List.all_eq_true.mpr fun tree isTree => ?_
  obtain ⟨_, isTreeRead⟩ := succeeds_mapM_iff.mp ⟨_, areRead⟩ tree isTree
  obtain ⟨_, isGroup, _⟩ := bind_eq_ok_iff.mp isTreeRead
  exact Group.hasObjects_of_decode isGroup

/--
Whether a document and each of its parts are objects where
members are asked for.
-/
def Theme.hasObjects (data : Wire) : Bool :=
  let provenance := (Wire.lookup? "meta" data.members).getD .null
  let collections := (Wire.lookup? "collections" data.members).getD (.list [])
  data.isObject && (!provenance.isTruthy || provenance.isObject) &&
    (match collections.parts with
     | .ok parts => parts.all Collection.hasObjects
     | .error _ => true)

/-- A number stands where an object belongs, at one level after the other. -/
example :
    [ Wire.int 5,
      .object [("meta", .int 5)],
      .object [("collections", .list [.int 5])],
      .object [("collections", .list [.object [("tokens", .int 5)]])],
      .object
        [("collections", .list [.object [("tokens", .object [("m", .int 5)])]])]
        ].all (fun data => !Theme.hasObjects data) = true := by
  decide

theorem Provenance.failsOnly_decode
    (data : Wire) :
    FailsOnly (Foreseen (data.isObject = false)) (Provenance.decode data) := by
  refine (data.failsOnly_getD "source" _).bind fun source _ => ?_
  refine (data.failsOnly_getD "figmaFileKey" _).bind fun fileKey _ => ?_
  refine (data.failsOnly_getD "lastSynced" _).bind fun lastSynced _ => ?_
  exact (data.failsOnly_getD "version" _).bind fun version _ => failsOnly_pure _

/--
A document fails in a foreseen way if objects stand where members are asked for.
-/
theorem Theme.failsOnly_decode
    (data : Wire) :
    FailsOnly (ForeseenFailure (Theme.hasObjects data = false))
      (Theme.decode standard data) := by
  cases data with
  | obj members =>
      have isObject : (Wire.obj members).isObject = true := rfl
      refine (Wire.failsOnly_getD_of_isObject isObject "meta" _).foreseen.bind
        fun provenance isProvenance => ?_
      refine (Wire.failsOnly_require _ "name").foreseen.bind fun name _ => ?_
      refine (Wire.failsOnly_getD_of_isObject isObject "collections"
        _).foreseen.bind fun collections isCollections => ?_
      rw [lift_eq_ok_iff, Wire.getD_obj] at isProvenance isCollections
      refine (Wire.failsOnly_parts collections).foreseen.bind fun parts areParts =>
        ?_
      refine FailsOnly.bind (failsOnly_mapM fun part isPart => ?_)
        fun collections _ => ?_
      · refine (Collection.failsOnly_decode part).mono fun failure foreseen =>
          foreseen.mono fun notHere => ?_
        refine Bool.eq_false_iff.mpr fun areObjects => ?_
        simp only [hasObjects, Wire.members, Except.ok.inj isCollections,
          lift_eq_ok_iff.mp areParts, Bool.and_eq_true] at areObjects
        cases (List.all_eq_true.mp areObjects.2 part isPart).symm.trans notHere
      · have described :
            FailsOnly (ForeseenFailure (Theme.hasObjects (.obj members) = false))
              (liftM ((Wire.obj members).getD "description" .null) :
                Except Failure Wire) :=
          (Wire.failsOnly_getD_of_isObject isObject "description" _).foreseen
        dsimp only
        split
        · rename_i isTruthy
          refine FailsOnly.bind ?_ fun decoded _ =>
            described.bind fun description _ => failsOnly_pure _
          refine (Provenance.failsOnly_decode provenance).foreseen.mono
            fun failure foreseen => foreseen.mono fun notObject => ?_
          simp [hasObjects, Wire.members, Except.ok.inj isProvenance, isTruthy,
            notObject]
        · exact described.bind fun description _ => failsOnly_pure _
  | _ => exact failsOnly_error_iff.mpr (.inr ⟨rfl, _, _, rfl⟩)

/-- A document that is read as a theme has objects where members are asked for. -/
theorem Theme.hasObjects_of_decode
    {data : Wire}
    {theme : Theme}
    (isRead : Theme.decode standard data = .ok theme) :
    Theme.hasObjects data = true := by
  obtain ⟨provenance, isProvenance, afterProvenance⟩ := bind_eq_ok_iff.mp isRead
  obtain ⟨_, _, afterName⟩ := bind_eq_ok_iff.mp afterProvenance
  obtain ⟨collections, isCollections, afterCollections⟩ :=
    bind_eq_ok_iff.mp afterName
  obtain ⟨parts, areParts, afterParts⟩ := bind_eq_ok_iff.mp afterCollections
  obtain ⟨_, areRead, afterAll⟩ := bind_eq_ok_iff.mp afterParts
  rw [lift_eq_ok_iff] at isProvenance isCollections areParts
  obtain ⟨members, rfl, isMeta⟩ := Wire.getD_eq_ok isProvenance
  have areCollections :
      collections = (Wire.lookup? "collections" members).getD (.list []) :=
    (Except.ok.inj isCollections).symm
  have isOrigin : (!provenance.isTruthy || provenance.isObject) = true := by
    cases isTruthy : provenance.isTruthy with
    | false => rfl
    | true =>
        rw [isTruthy, if_pos rfl] at afterAll
        obtain ⟨_, isDecoded, _⟩ := bind_eq_ok_iff.mp afterAll
        exact Wire.isObject_of_getD_bind (lift_eq_ok_iff.mp isDecoded)
  simp only [hasObjects, Wire.members, ← isMeta, ← areCollections, isOrigin,
    areParts]
  refine Bool.and_eq_true_iff.mpr ⟨rfl, List.all_eq_true.mpr fun part isPart => ?_⟩
  obtain ⟨_, isPartRead⟩ := succeeds_mapM_iff.mp ⟨_, areRead⟩ part isPart
  exact Collection.hasObjects_of_decode isPartRead

end DesignTokens
