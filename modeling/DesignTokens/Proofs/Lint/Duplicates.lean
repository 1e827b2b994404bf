import DesignTokens.Lint.Rules.Relations
import DesignTokens.Proofs.Theme.Writable
import DesignTokens.Proofs.Wire.Lines

namespace DesignTokens

/-!
# Tokens of one content

Two tokens have the same content when they have one type and their values have
the same document form up to the order of members.  In every tree of a theme
that was read, the rule on duplicate values reports the classes of this relation
that have more than one member, and nothing else: one finding for a class, in
the order in which a walk first meets the classes, with the paths of all members
in the order of the walk.
-/

section Classes

variable {α κ : Type} {related : α → α → Prop} {items : List α}

/--
On the way through the items, the first list is met when the second is not yet.
-/
def MetBefore (items earlier later : List α) : Prop :=
  ∃ front behind,
    items = front ++ behind ∧ (∃ item ∈ front, item ∈ earlier) ∧
      ∀ item ∈ front, item ∉ later

open Classical in
/--
The classes of an equivalence on a list of items: every item stands in one, each
holds in their order the items to which any of its members is related, and they
stand in the order in which they are first met.
-/
structure AreClasses
    (related : α → α → Prop)
    (items : List α)
    (classes : List (List α)) : Prop where
  equivalence :
    Equivalence (fun first second : { item // item ∈ items } =>
      related first second)
  covers :
    ∀ item ∈ items, ∃ members ∈ classes, item ∈ members
  nonempty :
    ∀ members ∈ classes, members ≠ []
  gathers :
    ∀ members ∈ classes, ∀ member ∈ members,
      members = items.filter (fun item => related member item)
  inOrder :
    classes.Pairwise (MetBefore items)

/-- Without repetitions, values stand in the order in which they are first met. -/
theorem pairwise_eraseDups
    [BEq κ]
    [LawfulBEq κ]
    (values : List κ) :
    values.eraseDups.Pairwise (fun earlier later =>
      ∃ front behind, values = front ++ behind ∧ earlier ∈ front ∧
        later ∉ front) := by
  match values with
  | [] => exact .nil
  | value :: rest =>
      have others := pairwise_eraseDups (rest.filter (fun other => !other == value))
      have apart : ∀ other ∈ (rest.filter (fun other => !other == value)).eraseDups,
          other ≠ value := by
        intro other isOther
        have kept := (List.mem_filter.mp (List.mem_eraseDups.mp isOther)).2
        simpa using kept
      rw [List.eraseDups_cons]
      apply List.pairwise_cons.mpr
      constructor
      · intro other isOther
        exact ⟨[value], rest, rfl, by simp, by simpa using apart other isOther⟩
      · apply List.Pairwise.imp_of_mem _ others
        rintro earlier later isEarlier isLater ⟨front, behind, isRest, inFront,
          notInFront⟩
        obtain ⟨kept, left, rfl, rfl, rfl⟩ := List.filter_eq_append_iff.mp isRest
        refine ⟨value :: kept, left, rfl, ?_, ?_⟩
        · exact List.mem_cons_of_mem _ (List.mem_of_mem_filter inFront)
        · intro inKept
          rcases List.mem_cons.mp inKept with isValue | inKept
          · exact apart later isLater isValue
          · refine notInFront (List.mem_filter.mpr ⟨inKept, ?_⟩)
            simpa using apart later isLater
termination_by values.length
decreasing_by
  simp only [List.length_cons]
  exact Nat.lt_succ_of_le (List.length_filter_le _ _)

/-- Items are in one class exactly when they have one key. -/
theorem areClasses_of_key
    [BEq κ]
    [LawfulBEq κ]
    {key : α → κ}
    (sameKey : ∀ first ∈ items, ∀ second ∈ items, related first second ↔
      key first = key second) :
    AreClasses related items
      ((items.map key).eraseDups.map fun value =>
        items.filter (fun item => key item == value)) where
  equivalence := by
    refine ⟨?_, ?_, ?_⟩
    · intro item
      exact (sameKey item item.2 item item.2).mpr rfl
    · intro first second isRelated
      have same := (sameKey first first.2 second second.2).mp isRelated
      exact (sameKey second second.2 first first.2).mpr same.symm
    · intro first second third isRelated isNext
      have same := (sameKey first first.2 second second.2).mp isRelated
      have next := (sameKey second second.2 third third.2).mp isNext
      exact (sameKey first first.2 third third.2).mpr (same.trans next)
  covers item isItem := by
    refine ⟨items.filter (fun other => key other == key item), ?_, ?_⟩
    · exact List.mem_map_of_mem
        (List.mem_eraseDups.mpr (List.mem_map_of_mem isItem))
    · exact List.mem_filter.mpr ⟨isItem, beq_self_eq_true _⟩
  nonempty members isClass := by
    obtain ⟨value, isValue, rfl⟩ := List.mem_map.mp isClass
    obtain ⟨item, isItem, rfl⟩ := List.mem_map.mp (List.mem_eraseDups.mp isValue)
    exact List.ne_nil_of_mem (List.mem_filter.mpr ⟨isItem, beq_self_eq_true _⟩)
  gathers members isClass member isMember := by
    obtain ⟨value, _, rfl⟩ := List.mem_map.mp isClass
    obtain ⟨isItem, hasKey⟩ := List.mem_filter.mp isMember
    obtain rfl := eq_of_beq hasKey
    apply List.filter_congr
    intro other isOther
    rw [Bool.eq_iff_iff]
    simp only [beq_iff_eq, decide_eq_true_eq]
    rw [sameKey member isItem other isOther, eq_comm]
  inOrder := by
    rw [List.pairwise_map]
    apply List.Pairwise.imp _ (pairwise_eraseDups (items.map key))
    rintro earlier later ⟨front, behind, isWhole, inFront, notInFront⟩
    obtain ⟨first, second, rfl, rfl, rfl⟩ := List.map_eq_append_iff.mp isWhole
    obtain ⟨item, isItem, rfl⟩ := List.mem_map.mp inFront
    refine ⟨first, second, rfl, ⟨item, isItem, ?_⟩, ?_⟩
    · exact List.mem_filter.mpr ⟨List.mem_append_left _ isItem, beq_self_eq_true _⟩
    · intro other isOther inLater
      have hasKey := eq_of_beq (List.mem_filter.mp inLater).2
      exact notInFront (List.mem_map.mpr ⟨other, isOther, hasKey⟩)

end Classes

/--
Tokens of one type whose values have the same document form up to the
order of members.
-/
def Token.SameContent (first second : Token) : Prop :=
  first.type = second.type ∧
    ∃ form other,
      Registry.standard.encodeValue first.type first.value = .ok form ∧
        Registry.standard.encodeValue second.type second.value = .ok other ∧
          form.Alike other

/-- The tokens of a tree that are no references, in the order of a walk. -/
def Group.values (group : Group) : List (TokenPath × Token) :=
  group.walk.filter (fun entry => !entry.2.value.isReference)

namespace Lint

/-- Type and value of a token as one line. -/
def contentLine (token : Token) : String :=
  (Wire.list [token.type, token.value.encode]).sorted.toLine

/-- The content of a token that can be written is one line. -/
theorem contentOf_eq
    {token : Token}
    (written : Registry.standard.encodeValue token.type token.value =
      .ok token.value.encode) :
    contentOf .standard token = .ok (contentLine token) := by
  rw [contentOf, written, ok_bind]
  rfl

/--
Tokens that can be written have the same content exactly when they
have the same line.
-/
theorem sameContent_iff
    {first second : Token}
    (firstWritable : first.Writable)
    (secondWritable : second.Writable)
    (firstIsValue : first.value.isReference = false)
    (secondIsValue : second.value.isReference = false) :
    first.SameContent second ↔ contentLine first = contentLine second := by
  obtain ⟨⟨tag, firstTag⟩, firstWritten⟩ := firstWritable firstIsValue
  obtain ⟨⟨other, secondTag⟩, secondWritten⟩ := secondWritable secondIsValue
  rw [contentLine, contentLine, Wire.toLine_sorted_eq_iff]
  constructor
  · rintro ⟨sameType, form, otherForm, isForm, isOtherForm, alike⟩
    obtain rfl := Except.ok.inj (isForm.symm.trans firstWritten)
    obtain rfl := Except.ok.inj (isOtherForm.symm.trans secondWritten)
    rw [sameType]
    exact .list (.cons (.refl _) (.cons alike .nil))
  · intro alike
    rw [firstTag, secondTag] at alike
    cases alike with
    | list alike =>
      cases alike with
      | cons sameTag alike =>
        cases sameTag with
        | str =>
          cases alike with
          | cons alike _ =>
            exact ⟨firstTag.trans secondTag.symm, _, _, firstWritten,
              secondWritten, alike⟩

section Trees

variable {tree : Group}

/--
A tree whose tokens can be written has all its values written out in the
order of the walk.
-/
theorem writtenTokens_eq
    (writable : ∀ entry ∈ tree.walk, entry.2.Writable) :
    writtenTokens .standard tree =
      .ok
        (tree.values.map
          (fun entry => ⟨TokenPath.key entry.1, contentLine entry.2⟩)) := by
  apply mapM_eq_ok_map
  intro entry isEntry
  obtain ⟨isVisited, isValue⟩ := List.mem_filter.mp isEntry
  have written := (writable entry isVisited (by simpa using isValue)).2
  rw [contentOf_eq written, ok_bind]
  rfl

/-- The values of a tree, class by class. -/
def classesOf (tree : Group) : List (List (TokenPath × Token)) :=
  (tree.values.map (fun entry => contentLine entry.2)).eraseDups.map fun content =>
    tree.values.filter (fun entry => contentLine entry.2 == content)

theorem areClasses_classesOf
    (writable : ∀ entry ∈ tree.walk, entry.2.Writable) :
    AreClasses (fun first second => first.2.SameContent second.2) tree.values
      (classesOf tree) := by
  apply areClasses_of_key
  intro first isFirst second isSecond
  obtain ⟨firstVisited, firstIsValue⟩ := List.mem_filter.mp isFirst
  obtain ⟨secondVisited, secondIsValue⟩ := List.mem_filter.mp isSecond
  exact sameContent_iff (writable first firstVisited)
    (writable second secondVisited)
    (by simpa using firstIsValue) (by simpa using secondIsValue)

/--
What is grouped by content are the paths of the classes of more than one member.
-/
theorem duplicatePaths_eq
    (tree : Group) :
    duplicatePaths
        (tree.values.map
          (fun entry => ⟨TokenPath.key entry.1, contentLine entry.2⟩)) =
      ((classesOf tree).filter (fun members => decide (2 ≤ members.length))).map
        (fun members => members.map (fun entry => TokenPath.key entry.1)) := by
  simp only [duplicatePaths, classesOf, List.map_map, List.filter_map,
    Function.comp_def, List.length_map]
  rfl

/-- The findings about a tree, given its classes. -/
def classFindings (collection : Collection) (mode : Label)
    (classes : List (List (TokenPath × Token))) : List Finding :=
  (classes.filter (fun members => decide (2 ≤ members.length))).map fun members =>
    duplicateFinding collection mode
      (members.map (fun entry => TokenPath.key entry.1))

/-- A collection whose tokens can be written has findings tree by tree. -/
theorem duplicateFindings_eq
    {collection : Collection}
    (writable :
      ∀ tree ∈ collection.tokens, ∀ entry ∈ tree.2.walk, entry.2.Writable) :
    duplicateFindings .standard collection =
      .ok (collection.tokens.flatMap (fun tree =>
        classFindings collection tree.1 (classesOf tree.2))) := by
  have treesRead :
      (collection.tokens.mapM fun tree => do
        let tokens ← writtenTokens .standard tree.2
        return (duplicatePaths tokens).map (duplicateFinding collection tree.1)) =
          .ok (collection.tokens.map (fun tree =>
            classFindings collection tree.1 (classesOf tree.2))) := by
    apply mapM_eq_ok_map
    intro tree isTree
    rw [writtenTokens_eq (writable tree isTree), ok_bind, duplicatePaths_eq,
      List.map_map]
    rfl
  rw [duplicateFindings, treesRead, ok_bind, List.flatMap_def]
  rfl

end Trees

/--
For a theme that was read, the rule on duplicate values finishes, and in every
tree it reports the classes of tokens of one content that have two members or
more: one finding a class, class by class in the order in which a walk meets
them, with the path of each member in the order of the walk.
-/
theorem duplicateValues_reports_classes
    {data : Wire}
    {theme : Theme}
    (decoded : Theme.decode .standard data = .ok theme) :
    ∃ classesOf : Group → List (List (TokenPath × Token)),
      (∀ collection ∈ theme.collections, ∀ tree ∈ collection.tokens,
        AreClasses (fun first second => first.2.SameContent second.2) tree.2.values
          (classesOf tree.2)) ∧
      duplicateValues.check .standard theme =
        .ofFindings (theme.collections.flatMap fun collection =>
          collection.tokens.flatMap fun tree =>
            classFindings collection tree.1 (classesOf tree.2)) := by
  have writable := theme.writable_of_decode decoded
  have collectionsRead :
      theme.collections.mapM (duplicateFindings .standard) =
        .ok (theme.collections.map fun collection =>
          collection.tokens.flatMap fun tree =>
            classFindings collection tree.1 (classesOf tree.2)) := by
    apply mapM_eq_ok_map
    intro collection isCollection
    exact duplicateFindings_eq (writable collection isCollection)
  refine ⟨classesOf, ?_, ?_⟩
  · intro collection isCollection tree isTree
    exact areClasses_classesOf (writable collection isCollection tree isTree)
  · simp only [duplicateValues]
    rw [collectionsRead, ok_bind, List.flatMap_def]
    rfl

/-- A document with one number twice, as a text besides, and behind a reference. -/
def repeated : Wire :=
  .obj
    [ ("name", .str "brand"),
      ("collections",
        .list
          [ .obj
              [ ("name", .str "base"),
                ("modes", .list [.str "light"]),
                ("tokens",
                  .obj
                    [ ("light",
                        .obj
                          [ ("count",
                            .obj [("$type", .str "number"), ("$value", .int 4)]),
                            ("label",
                              .obj [("$type", .str "string"), ("$value", .int 4)]),
                            ("alias",
                              .obj
                                [ ("$type", .str "number"),
                                  ("$value", .obj [("$ref", .str "count")]) ]),
                            ("again",
                              .obj [("$type", .str "number"), ("$value", .int 4)])
                          ]) ]) ] ]) ]

/--
The document is read, its tokens have classes, and the one with two
members is reported.
-/
theorem duplicateValues_repeated :
    ∃ theme,
      Theme.decode .standard repeated = .ok theme ∧
        (∀ collection ∈ theme.collections, ∀ tree ∈ collection.tokens, ∃ classes,
          AreClasses (fun first second => first.2.SameContent second.2)
            tree.2.values classes) ∧
        (duplicateValues.check .standard theme).findings.map Finding.text =
          ["Duplicate values found: count, again"] := by
  obtain ⟨classesOf, areClasses, _⟩ :=
    @duplicateValues_reports_classes repeated _ rfl
  refine ⟨_, rfl, ?_, by decide +kernel⟩
  intro collection isCollection tree isTree
  exact ⟨classesOf tree.2, areClasses collection isCollection tree isTree⟩

end Lint

end DesignTokens
