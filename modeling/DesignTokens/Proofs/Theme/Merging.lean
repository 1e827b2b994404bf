import DesignTokens.Proofs.Theme.Placement

namespace DesignTokens

/-!
# Merging is placing

Merging descends into two trees at once.  Placing the tokens of the second tree
in the first, one after the other, comes to the same tree, down to the order of
the members of every group, as long as no group is empty: a walk does not visit
an empty group, so nothing would be placed for it.
-/

namespace Node

/-- A path leads on from where its beginning leads. -/
theorem get?_append
    (node : Node)
    (front back : TokenPath) :
    node.get? (front ++ back) =
      (node.get? front).bind (fun found => found.get? back) := by
  induction front generalizing node with
  | nil => rfl
  | cons name rest inductionHypothesis =>
      cases node with
      | token leaf => rfl
      | group members =>
          rw [List.cons_append, get?, get?]
          cases Wire.lookup? name members with
          | none => rfl
          | some child => exact inductionHypothesis child

/-- What a path leads to in a tree of distinct names has distinct names. -/
theorem NamesDistinct.of_get?
    {node found : Node}
    {path : TokenPath}
    (distinct : node.NamesDistinct)
    (isThere : node.get? path = some found) :
    found.NamesDistinct := by
  induction path generalizing node with
  | nil =>
      obtain rfl : node = found := Option.some.inj isThere
      exact distinct
  | cons name rest inductionHypothesis =>
      cases node with
      | token leaf => cases isThere
      | group members =>
          simp only [get?] at isThere
          split at isThere
          · rename_i child isChild
            exact inductionHypothesis
              (distinct.of_mem (mem_of_lookup? isChild)) isThere
          · cases isThere

end Node

namespace Group

theorem insert_insert
    (name : String)
    (first second : Node)
    (group : Group) :
    Wire.insert name second (Wire.insert name first group) =
      Wire.insert name second group := by
  induction group with
  | nil => simp [Wire.insert]
  | cons member rest inductionHypothesis =>
      by_cases sameName : member.1 = name
      · simp [Wire.insert, sameName]
      · simp [Wire.insert, sameName, inductionHypothesis]

theorem childMembers_insert
    (name : String)
    (members group : Group) :
    childMembers name (Wire.insert name (.group members) group) = members := by
  rw [childMembers, Wire.lookup?_insert, if_pos rfl]

/-- Entries are placed on top of those before them. -/
theorem update_append
    {group grown : Group}
    {entries : Entries}
    (placed : group.update entries = ⟨grown, none⟩)
    (more : Entries) :
    group.update (entries ++ more) = grown.update more := by
  induction entries generalizing group with
  | nil =>
      cases placed
      rfl
  | cons entry rest inductionHypothesis =>
      obtain ⟨path, token⟩ := entry
      cases path with
      | nil => cases placed
      | cons first tail =>
          have restPlaced :
              (group.place token first tail).update rest = ⟨grown, none⟩ := placed
          exact inductionHypothesis restPlaced

/-- Entries below a name are placed in the group of that name. -/
theorem update_insert_below
    {members grown : Group}
    {entries : Entries}
    (placed : members.update entries = ⟨grown, none⟩)
    (name : String)
    (group : Group) :
    update (Wire.insert name (.group members) group)
        (entries.map (fun entry => (name :: entry.1, entry.2))) =
      ⟨Wire.insert name (.group grown) group, none⟩ := by
  induction entries generalizing members with
  | nil =>
      cases placed
      rfl
  | cons entry rest inductionHypothesis =>
      obtain ⟨path, token⟩ := entry
      cases path with
      | nil => cases placed
      | cons first tail =>
          have restPlaced :
              (members.place token first tail).update rest = ⟨grown, none⟩ := placed
          have firstPlaced :
              place (Wire.insert name (.group members) group) token name
                (first :: tail) =
                  Wire.insert name (.group (members.place token first tail))
                    group := by
            rw [place, childMembers_insert, insert_insert]
          rw [← inductionHypothesis restPlaced, ← firstPlaced]
          rfl

/-- The first entry below a name makes room for a group of that name. -/
theorem update_below
    {group grown : Group}
    {name : String}
    {entries : Entries}
    (placed : (childMembers name group).update entries = ⟨grown, none⟩)
    (nonempty : entries ≠ []) :
    group.update (entries.map (fun entry => (name :: entry.1, entry.2))) =
      ⟨Wire.insert name (.group grown) group, none⟩ := by
  obtain ⟨⟨path, token⟩, rest, rfl⟩ := List.exists_cons_of_ne_nil nonempty
  cases path with
  | nil => cases placed
  | cons first tail =>
      have restPlaced :
          ((childMembers name group).place token first tail).update rest =
            ⟨grown, none⟩ := placed
      exact update_insert_below restPlaced name group

/-- Members of new names are merged into a group by adding them at its end. -/
theorem mergeMembers_of_new
    {override : Group}
    (distinct : (override.map Prod.fst).Nodup)
    {base : Group}
    (areNew : ∀ name ∈ override.map Prod.fst, name ∉ base.map Prod.fst) :
    mergeMembers base override = base ++ override := by
  induction override generalizing base with
  | nil => rw [mergeMembers, List.append_nil]
  | cons member rest inductionHypothesis =>
      obtain ⟨name, child⟩ := member
      obtain ⟨notInRest, restDistinct⟩ := List.nodup_cons.mp distinct
      obtain ⟨isNew, restNew⟩ := List.forall_mem_cons.mp areNew
      rw [mergeMembers, Wire.lookup?_eq_none_iff.mpr isNew]
      simp only
      rw [Wire.insert_of_not_mem isNew, inductionHypothesis restDistinct,
        List.append_assoc]
      · rfl
      · intro later isLater isKnown
        rw [List.map_append, List.mem_append] at isKnown
        rcases isKnown with isOld | isFirst
        · exact restNew later isLater isOld
        · obtain rfl : later = name := by simpa using isFirst
          exact notInRest isLater

/-- Merging into nothing gives the members themselves. -/
theorem mergeMembers_nil
    {override : Group}
    (distinct : (override.map Prod.fst).Nodup) :
    mergeMembers [] override = override :=
  mergeMembers_of_new distinct (fun _ _ isOld => by cases isOld)

/-- Placing the tokens of a tree without empty groups merges it. -/
theorem update_walk
    (base override : Group)
    (tidy : override.Tidy) :
    base.update override.walk = ⟨merge base override, none⟩ := by
  match override with
  | [] => rfl
  | (name, .token leaf) :: rest =>
      have restPlaced :=
        update_walk (Wire.insert name (.token leaf) base) rest
          ⟨tidy.distinct.2.2, tidy.occupied.2⟩
      have merged :
          merge base ((name, .token leaf) :: rest) =
            merge (Wire.insert name (.token leaf) base) rest := by
        rw [merge, mergeMembers]
        cases Wire.lookup? name base with
        | none => rfl
        | some existing => cases existing <;> rfl
      rw [merged, ← restPlaced]
      rfl
  | (name, .group inner) :: rest =>
      have innerTidy : Tidy inner := ⟨tidy.distinct.2.1, tidy.occupied.1.2⟩
      have innerPlaced := update_walk (childMembers name base) inner innerTidy
      have innerVisited : walk inner ≠ [] :=
        Node.Occupied.walk_ne_nil (.group inner) tidy.occupied.1
      have below := update_below innerPlaced innerVisited
      have restPlaced :=
        update_walk
          (Wire.insert name (.group (merge (childMembers name base) inner)) base)
          rest ⟨tidy.distinct.2.2, tidy.occupied.2⟩
      have merged : merge base ((name, .group inner) :: rest) =
          merge (Wire.insert name (.group (merge (childMembers name base) inner))
            base) rest := by
        have alone : merge [] inner = inner :=
          mergeMembers_nil innerTidy.distinct.nodup
        rw [merge, mergeMembers, childMembers]
        -- Nothing, or a token that makes way, leaves room for the whole group.
        cases Wire.lookup? name base with
        | none =>
            simp only [alone]
            rfl
        | some existing =>
            cases existing with
            | token leaf =>
                simp only [alone]
                rfl
            | group members => rfl
      rw [merged, ← restPlaced, ← update_append below]
      rfl

/--
Placing the tokens of a tree without empty groups in nothing
gives the tree back.
-/
theorem update_nil_walk
    {group : Group}
    (tidy : group.Tidy) :
    update [] group.walk = ⟨group, none⟩ := by
  rw [update_walk [] group tidy, merge, mergeMembers_nil tidy.distinct.nodup]

/--
No token stands at a path, at one above it or at one below it, and no
group at the path.
-/
def Spares (group : Group) (path : TokenPath) : Prop :=
  group.get? path = none ∧
    ∀ front leaf, front <+: path → front ≠ path →
      group.get? front ≠ some (.token leaf)

/--
A path is spared when no token of the group stands at a path that overlaps it.
-/
theorem spares_iff
    {group : Group}
    (tidy : group.Tidy)
    {path : TokenPath}
    (nonempty : path ≠ []) :
    group.Spares path ↔
      ∀ entry ∈ group.walk, ¬ TokenPath.Overlaps entry.1 path := by
  have distinct : (Node.group group).NamesDistinct := tidy.distinct
  constructor
  · rintro ⟨isFree, noTokenAbove⟩ ⟨other, leaf⟩ isEntry overlaps
    have isThere : group.get? other = some (.token leaf) :=
      (Node.mem_walk_iff_get? distinct).mp isEntry
    rcases overlaps with isAbove | ⟨back, rfl⟩
    · by_cases same : other = path
      · rw [← same, isThere] at isFree
        cases isFree
      · exact noTokenAbove other leaf isAbove same isThere
    · rw [get?, Node.get?_append, ← get?, isFree] at isThere
      cases isThere
  · intro apart
    refine ⟨?_, fun front leaf isAbove _ isThere => ?_⟩
    · cases isThere : group.get? path with
      | none => rfl
      | some found =>
          have groupNonempty : group ≠ [] := by
            rintro rfl
            obtain ⟨first, rest, rfl⟩ := List.exists_cons_of_ne_nil nonempty
            cases isThere
          have rootOccupied : (Node.group group).Occupied :=
            ⟨groupNonempty, tidy.occupied⟩
          have foundVisited :=
            Node.Occupied.walk_ne_nil found (rootOccupied.of_get? isThere)
          obtain ⟨⟨back, leaf⟩, isBelow⟩ := List.exists_mem_of_ne_nil _ foundVisited
          have isToken : group.get? (path ++ back) = some (.token leaf) := by
            rw [get?, Node.get?_append, ← get?, isThere]
            exact (Node.mem_walk_iff_get? (distinct.of_get? isThere)).mp isBelow
          have isEntry : (path ++ back, leaf) ∈ group.walk :=
            Node.mem_walk_of_get? isToken
          exact (apart _ isEntry (.inr (List.prefix_append path back))).elim
    · exact apart (front, leaf) (Node.mem_walk_of_get? isThere) (.inl isAbove)

/-- Building from the walk of a tree without empty groups gives the tree back. -/
theorem build_walk
    {group : Group}
    (tidy : group.Tidy) :
    build group.walk = .ok group := by
  rw [build, update_nil_walk tidy]

/-- Building from the walks of two trees without empty groups merges them. -/
theorem build_walk_append_walk
    {base override : Group}
    (baseTidy : base.Tidy)
    (overrideTidy : override.Tidy) :
    build (base.walk ++ override.walk) = .ok (merge base override) := by
  rw [build, update_append (update_nil_walk baseTidy),
    update_walk base override overrideTidy]

theorem walk_paths_ne_nil
    (group : Group) :
    ∀ entry ∈ group.walk, entry.1 ≠ [] :=
  fun _ visited => Node.ne_nil_of_mem_walkMembers visited

/-- Every token of a tree survives the placements of the walk that visits it. -/
theorem survives_walk_iff
    {group : Group}
    (tidy : group.Tidy)
    {path : TokenPath}
    {token : Token} :
    Entries.Survives group.walk path token ↔ (path, token) ∈ group.walk := by
  obtain ⟨grown, updated, _, visits⟩ :=
    update_outcome Tidy.nil group.walk_paths_ne_nil
  rw [update_nil_walk tidy] at updated
  obtain rfl : group = grown := congrArg Placed.group updated
  rw [visits]
  simp [walk, Node.walkMembers]

/--
After merging there are the tokens of the second tree and those of the first
whose paths the second spares.
-/
theorem mem_walk_merge_iff
    {base override : Group}
    (baseTidy : base.Tidy)
    (overrideTidy : override.Tidy)
    {path : TokenPath}
    {token : Token} :
    (path, token) ∈ (merge base override).walk ↔
      (path, token) ∈ override.walk ∨
        ((path, token) ∈ base.walk ∧ override.Spares path) := by
  obtain ⟨grown, updated, _, visits⟩ :=
    update_outcome baseTidy override.walk_paths_ne_nil
  rw [update_walk base override overrideTidy] at updated
  obtain rfl : merge base override = grown := congrArg Placed.group updated
  rw [visits, survives_walk_iff overrideTidy]
  refine or_congr_right (and_congr_right fun visited => ?_)
  exact (spares_iff overrideTidy (base.walk_paths_ne_nil _ visited)).symm

theorem Spares.not_mem_walk
    {group : Group}
    {path : TokenPath}
    (spares : group.Spares path)
    (distinct : Node.NamesDistinctBelow group)
    (token : Token) :
    (path, token) ∉ group.walk := by
  intro visited
  have rootDistinct : (Node.group group).NamesDistinct := distinct
  have isThere : group.get? path = some (.token token) :=
    (Node.mem_walk_iff_get? rootDistinct).mp visited
  rw [spares.1] at isThere
  cases isThere

/--
Merging two trees without empty groups is building a tree from the tokens of
the first followed by those of the second, down to the order of all members.  A
tree is built back from its own tokens.  All tokens of the second tree are kept;
a token of the first one is kept as such exactly when the second has no member
at its path and no token at a proper beginning of it, and there are no others.
-/
theorem merge_eq_build_walks
    (base override : Group)
    (baseTidy : base.Tidy)
    (overrideTidy : override.Tidy) :
    build (base.walk ++ override.walk) = .ok (merge base override) ∧
      build base.walk = .ok base ∧
      build override.walk = .ok override ∧
      (∀ path token,
        (path, token) ∈ base.walk →
          ((path, token) ∈ (merge base override).walk ∧
            (path, token) ∉ override.walk ↔
            override.Spares path)) ∧
      (∀ entry ∈ override.walk, entry ∈ (merge base override).walk) ∧
      ∀ entry ∈ (merge base override).walk, entry ∈ override.walk ∨
        entry ∈ base.walk := by
  refine ⟨build_walk_append_walk baseTidy overrideTidy, build_walk baseTidy,
    build_walk overrideTidy, fun path token inBase => ?_,
    fun entry inOverride => ?_, fun entry isMerged => ?_⟩
  · constructor
    · rintro ⟨isMerged, notInOverride⟩
      have kept := (mem_walk_merge_iff baseTidy overrideTidy).mp isMerged
      exact (kept.resolve_left notInOverride).2
    · intro spares
      exact ⟨(mem_walk_merge_iff baseTidy overrideTidy).mpr (.inr ⟨inBase, spares⟩),
        spares.not_mem_walk overrideTidy.distinct token⟩
  · exact (mem_walk_merge_iff baseTidy overrideTidy).mpr (.inl inOverride)
  · exact ((mem_walk_merge_iff baseTidy overrideTidy).mp isMerged).imp_right
      And.left

/-- A group beside a token. -/
def plainScale : Group :=
  [("step", .group [("small", .token (count 1)), ("large", .token (count 2))]),
    ("ratio", .token (count 3)), ("base", .token (count 4))]

/--
The token of the other tree is a group here, and one of its groups is a token.
-/
def nestedScale : Group :=
  [("ratio", .group [("minor", .token (count 5))]),
    ("step", .group [("small", .group [("narrow", .token (count 6))])]),
    ("unit", .token (count 7))]

/--
Where a token meets a group, the second tree wins; all other members
keep their places.
-/
theorem merge_scales :
    plainScale.Tidy ∧
      nestedScale.Tidy ∧
      build (plainScale.walk ++ nestedScale.walk) =
        .ok [("step", .group
              [("small", .group [("narrow", .token (count 6))]),
                ("large", .token (count 2))]),
            ("ratio", .group [("minor", .token (count 5))]),
            ("base", .token (count 4)),
            ("unit", .token (count 7))] ∧
      nestedScale.Spares ["step", "large"] ∧
      ¬ nestedScale.Spares ["ratio"] := by
  have plainTidy : plainScale.Tidy :=
    ⟨by simp [plainScale, Node.NamesDistinct, Node.NamesDistinctBelow],
      by simp [plainScale, Node.Occupied, Node.OccupiedBelow]⟩
  have nestedTidy : nestedScale.Tidy :=
    ⟨by simp [nestedScale, Node.NamesDistinct, Node.NamesDistinctBelow],
      by simp [nestedScale, Node.Occupied, Node.OccupiedBelow]⟩
  obtain ⟨built, _, _, keeps, _⟩ :=
    merge_eq_build_walks plainScale nestedScale plainTidy nestedTidy
  refine ⟨plainTidy, nestedTidy, built, (keeps _ (count 2) ?_).mp ⟨?_, ?_⟩,
    fun spares => ?_⟩
  · simp [plainScale, walk, Node.walkMembers, Node.walk]
  · have isThere :
        (Node.group (merge plainScale nestedScale)).get? ["step", "large"] =
          some (.token (count 2)) :=
      rfl
    exact Node.mem_walk_of_get? isThere
  · simp [nestedScale, walk, Node.walkMembers, Node.walk]
  · cases spares.1

end Group

end DesignTokens
