import DesignTokens.Theme.Lookup

namespace DesignTokens

/-!
# Tokens of the requested mode

A look-up asks the collections in order, and each of them answers at once: from
the tree of the requested mode, or from that of its default mode when it does
not have the requested one.  The requested mode therefore wins over the other
modes of its own collection and of all later ones, but not over the default mode
of an earlier collection that lacks it.
-/

/-- No token stands in an empty tree. -/
theorem Group.token?_nil
    (key : String) :
    Group.token? [] key = none := by
  unfold Group.token? Group.getKey? Group.get?
  cases Text.splitText '.' key <;> rfl

namespace Collection

/-- The token at a key in the tree of a mode, if the collection has that mode. -/
def tokenIn? (mode : Label) (key : String) (collection : Collection) :
    Option Token :=
  (collection.tree? mode).bind (fun tree => Group.token? tree key)

/--
The token that a collection without the requested mode answers with: that of
its default mode.
-/
def standIn? (mode : Label) (key : String) (collection : Collection) :
    Option Token :=
  if collection.hasMode mode then none
  else collection.tokenIn? collection.defaultMode key

theorem isSome_tree?
    (collection : Collection)
    (mode : Label) :
    (collection.tree? mode).isSome = collection.hasMode mode := by
  rw [tree?, Option.isSome_map, List.isSome_find?]
  rfl

theorem tokenIn?_of_lacking
    {collection : Collection}
    {mode : Label}
    (lacks : collection.hasMode mode = false)
    (key : String) :
    collection.tokenIn? mode key = none := by
  rw [← isSome_tree?, Option.isSome_eq_false_iff,
    Option.isNone_iff_eq_none] at lacks
  rw [tokenIn?, lacks, Option.bind_none]

/-- A tree that is not there holds as little as an empty one. -/
theorem token?_getD_tree?
    (collection : Collection)
    (mode : Label)
    (key : String) :
    Group.token? ((collection.tree? mode).getD []) key =
      collection.tokenIn? mode key := by
  unfold tokenIn?
  cases collection.tree? mode with
  | none => exact Group.token?_nil key
  | some tree => rfl

/--
A collection answers from the requested mode or, lacking that, from
its default mode.
-/
theorem token?_preferredTree
    {mode : Label}
    (isNamed : mode.isTruthy = true)
    (collection : Collection)
    (key : String) :
    Group.token? (collection.preferredTree mode) key =
      (collection.tokenIn? mode key).or (collection.standIn? mode key) := by
  unfold preferredTree modeTokens standIn?
  cases has : collection.hasMode mode with
  | true => simp [isNamed, token?_getD_tree?]
  | false => simp [Wire.isTruthy, token?_getD_tree?, tokenIn?_of_lacking has]

/-- A mode without a name is not told from no mode. -/
theorem preferredTree_of_unnamed
    {mode : Label}
    (isUnnamed : mode.isTruthy = false)
    (collection : Collection) :
    collection.preferredTree mode = collection.preferredTree .null := by
  have noMode : Wire.isTruthy .null = false := rfl
  unfold preferredTree modeTokens
  split <;> simp [isUnnamed, noMode]

end Collection

namespace Theme

open Collection

/--
The collections answer in order, each from the requested mode or from
its default mode.
-/
theorem findPreferred?_eq
    {mode : Label}
    (isNamed : mode.isTruthy = true)
    (theme : Theme)
    (key : String) :
    theme.findPreferred? key mode =
      theme.collections.findSome? (fun collection =>
        (collection.tokenIn? mode key).or (collection.standIn? mode key)) := by
  unfold findPreferred?
  refine congrArg (theme.collections.findSome? ·) (funext fun collection => ?_)
  exact token?_preferredTree isNamed collection key

/--
Where no collection holds the key in the requested mode, only
default modes answer.
-/
theorem findSome?_of_none_holds
    {mode : Label}
    {key : String}
    {collections : List Collection}
    (noneHolds : ∀ collection ∈ collections, collection.tokenIn? mode key = none) :
    collections.findSome? (fun collection =>
        (collection.tokenIn? mode key).or (collection.standIn? mode key)) =
      collections.findSome? (standIn? mode key) := by
  induction collections with
  | nil => rfl
  | cons first rest inductionHypothesis =>
      obtain ⟨firstHolds, restHold⟩ := List.forall_mem_cons.mp noneHolds
      rw [List.findSome?_cons, List.findSome?_cons, firstHolds, Option.none_or,
        inductionHypothesis restHold]

/--
The first collection that holds the key in the requested mode answers, unless an
earlier one does.
-/
theorem findPreferred?_of_first_holder
    {mode : Label}
    (isNamed : mode.isTruthy = true)
    {theme : Theme}
    {key : String}
    {before after : List Collection}
    {holder : Collection}
    {token : Token}
    (inOrder : theme.collections = before ++ holder :: after)
    (holds : holder.tokenIn? mode key = some token)
    (isFirst : ∀ earlier ∈ before, earlier.tokenIn? mode key = none) :
    theme.findPreferred? key mode =
      (before.findSome? (standIn? mode key)).or (some token) := by
  rw [findPreferred?_eq isNamed, inOrder, List.findSome?_append,
    findSome?_of_none_holds isFirst, List.findSome?_cons, holds, Option.some_or]

/--
Looking up a key in a mode finds the token of the first collection that holds it
in that mode, unless an earlier collection lacks the mode and holds the key in
its default mode.  When no collection holds the key in the mode, the first that
lacks the mode and holds the key in its default mode answers, and after that any
tree.  A mode whose name is empty is looked up as if no mode were requested.
-/
theorem find?_prefers_requested_mode
    (theme : Theme)
    (key : String)
    (mode : Label) :
    (mode.isTruthy = true →
      (∀ before holder after token,
        theme.collections = before ++ holder :: after →
          holder.tokenIn? mode key = some token →
            (∀ earlier ∈ before, earlier.tokenIn? mode key = none) →
              theme.find? key mode =
                (before.findSome? (standIn? mode key)).or (some token)) ∧
      ((∀ collection ∈ theme.collections, collection.tokenIn? mode key = none) →
        theme.find? key mode =
          (theme.collections.findSome? (standIn? mode key)).or
            (theme.findAnywhere? key))) ∧
    (mode.isTruthy = false → theme.find? key mode = theme.find? key .null) := by
  refine ⟨fun isNamed => ⟨?_, fun noneHolds => ?_⟩, fun isUnnamed => ?_⟩
  · intro before holder after token inOrder holds isFirst
    rw [find?, findPreferred?_of_first_holder isNamed inOrder holds isFirst,
      Option.or_assoc, Option.some_or]
  · rw [find?, findPreferred?_eq isNamed, findSome?_of_none_holds noneHolds]
  · unfold find? findPreferred?
    simp only [preferredTree_of_unnamed isUnnamed]

/-- A collection of one mode that holds one number. -/
def lightOnly (key : String) (value : Int) : Collection where
  name := .str "first"
  modes := [.str "light"]
  defaultMode := .str "light"
  tokens :=
    [(.str "light", [(key, .token (.plain "number" (.plain (.int value))))])]
  description := .null

/-- A collection of two modes that holds one number in each. -/
def lightAndDark (key : String) (light dark : Int) : Collection where
  name := .str "second"
  modes := [.str "light", .str "dark"]
  defaultMode := .str "light"
  tokens :=
    [ (.str "light", [(key, .token (.plain "number" (.plain (.int light))))]),
      (.str "dark", [(key, .token (.plain "number" (.plain (.int dark))))]) ]
  description := .null

/--
The first collection lacks the dark mode, and holds the given key
in the light one.
-/
def layered (key : String) : Theme where
  name := .str "layered"
  collections := [lightOnly key 1, lightAndDark "a" 2 3]
  provenance? := none
  description := .null

/-- The first collection holds another key, so the dark token is found. -/
theorem find?_layered_apart :
    (Wire.str "dark").isTruthy = true ∧
      (layered "b").collections = [lightOnly "b" 1] ++ lightAndDark "a" 2 3 :: [] ∧
      (lightAndDark "a" 2 3).tokenIn? (.str "dark") "a" =
        some (.plain "number" (.plain (.int 3))) ∧
      (layered "b").find? "a" (.str "dark") =
        some (.plain "number" (.plain (.int 3))) := by
  have isNamed : (Wire.str "dark").isTruthy = true := by decide
  have holds :
      (lightAndDark "a" 2 3).tokenIn? (.str "dark") "a" =
        some (.plain "number" (.plain (.int 3))) := rfl
  have isFirst :
      ∀ earlier ∈ [lightOnly "b" 1], earlier.tokenIn? (.str "dark") "a" = none := by
    intro earlier isEarlier
    obtain rfl := List.mem_singleton.mp isEarlier
    rfl
  exact ⟨isNamed, rfl, holds,
    ((find?_prefers_requested_mode (layered "b") "a" (.str "dark")).1 isNamed).1 _ _
      _ _ rfl holds isFirst⟩

/--
The second collection holds a dark token, but the light one of
the first is found.
-/
theorem find?_layered_hidden :
    (∃ collection ∈ (layered "a").collections,
      collection.hasMode (.str "dark") = true ∧
        collection.tokenIn? (.str "dark") "a" =
          some (.plain "number" (.plain (.int 3)))) ∧
      (layered "a").find? "a" (.str "dark") =
        some (.plain "number" (.plain (.int 1))) ∧
      ∀ collection ∈ (layered "a").collections,
        collection.tokenIn? (.str "dark") "a" ≠
          some (.plain "number" (.plain (.int 1))) := by
  refine ⟨⟨lightAndDark "a" 2 3, by simp [layered], rfl, rfl⟩, rfl, ?_⟩
  intro collection isCollection isDark
  rcases List.mem_cons.mp isCollection with rfl | isSecond
  · cases isDark
  · obtain rfl := List.mem_singleton.mp isSecond
    cases isDark

end Theme

end DesignTokens
