import DesignTokens.Proofs.Value.AnimationWords
import DesignTokens.Proofs.Value.Documents
import DesignTokens.Theme.Lookup

namespace DesignTokens

/-!
# The shape of values that are read

What reading a value from a text makes sure of: a font weight is one of the
hundreds, a shadow has a layer, and the parts that documents leave out or take
for something else are never among those that a text gives.
-/

open DesignTokens.Text

namespace FontWeight

/-- The nearest weight is a weight, whatever the distances are. -/
theorem nearestBy_mem_weights
    {α : Type}
    (closer : α → α → Bool)
    (distance : Nat → α) :
    nearestBy closer distance ∈ weights := by
  refine List.foldlRecOn (motive := (· ∈ weights)) weights _ (by decide) ?_
  intro best isWeight weight isCandidate
  split
  · exact isCandidate
  · exact isWeight

/-- Every keyword stands for a weight. -/
theorem mem_weights_of_mem_keywords :
    ∀ keyword ∈ keywords, keyword.2 ∈ weights := by
  decide

theorem mem_weights_of_ofPlainText
    {text : String}
    {weight : Nat}
    (isRead : ofPlainText text = .ok (some weight)) :
    weight ∈ weights := by
  unfold ofPlainText at isRead
  split at isRead
  · split at isRead
    · cases isRead
    · cases isRead
      exact nearestBy_mem_weights _ _
  · exact mem_weights_of_mem_keywords _ (mem_of_lookup? (Except.ok.inj isRead))

/-- A font weight that is read is one of those that fonts have. -/
theorem mem_weights_of_parse
    {raw : Wire}
    {weight : Nat}
    (isRead : parse raw = .ok (some weight)) :
    weight ∈ weights := by
  unfold parse at isRead
  split at isRead
  · cases isRead
  · cases isRead
    exact nearestBy_mem_weights _ _
  · cases isRead
    exact nearestBy_mem_weights _ _
  · exact mem_weights_of_ofPlainText isRead

end FontWeight

/-- The line height of a text style that is read is a length or a plain ratio. -/
theorem Typography.canonical_of_parse
    {raw : String}
    {style : Typography}
    (isRead : parse raw = .ok (some style)) :
    style.lineHeight.Canonical := by
  unfold parse at isRead
  split at isRead
  · cases isRead
  · simp only at isRead
    split at isRead
    · cases isRead
    · rename_i lengths _
      obtain ⟨weight?, _, isStyle⟩ := map_eq_ok_iff.mp isRead
      obtain ⟨weight, _, rfl⟩ := Option.map_eq_some_iff.mp isStyle
      rcases lengths with ⟨size, _ | height, spacing⟩
      · exact rfl
      · trivial

namespace Shadow

/-- The inset mark of an effect is a truth value. -/
theorem canonical_of_parseEffect
    {raw : String}
    {layer : Shadow}
    (isRead : parseEffect raw = some layer) :
    layer.Canonical := by
  unfold parseEffect at isRead
  simp only [Option.bind_eq_bind, Option.bind_eq_some_iff, Option.pure_def,
    Option.some.injEq] at isRead
  obtain ⟨_, _, _, _, _, _, _, _, rfl⟩ := isRead
  exact ⟨_, rfl⟩

theorem canonical_of_ofLengths?
    {lengths : List Dimension}
    {color : Color}
    {inset : Bool}
    {layer : Shadow}
    (isRead : ofLengths? lengths color inset = some layer) :
    layer.Canonical := by
  unfold ofLengths? at isRead
  split at isRead
  all_goals cases isRead
  all_goals exact ⟨inset, rfl⟩

theorem canonical_of_parseLayer
    {raw : String}
    {layer : Shadow}
    (isRead : parseLayer raw = .ok (some layer)) :
    layer.Canonical := by
  unfold parseLayer at isRead
  obtain ⟨color?, _, afterColor⟩ := bind_eq_ok_iff.mp isRead
  simp only at afterColor
  split at afterColor
  · cases pure_eq_ok_iff.mp afterColor
  · exact canonical_of_ofLengths? (pure_eq_ok_iff.mp afterColor)

/-- When every piece is there, the pieces are known one by one. -/
theorem eq_map_some_of_mapM
    {pieces : List (Option Shadow)}
    {layers : List Shadow}
    (areThere : pieces.mapM id = some layers) :
    pieces = layers.map some := by
  induction pieces generalizing layers with
  | nil =>
      obtain rfl : [] = layers := by simpa using areThere
      rfl
  | cons first rest inductionHypothesis =>
      rw [List.mapM_cons] at areThere
      obtain ⟨layer, isFirst, afterFirst⟩ := Option.bind_eq_some_iff.mp areThere
      obtain ⟨more, areRest, joined⟩ := Option.bind_eq_some_iff.mp afterFirst
      obtain rfl := Option.some.inj joined
      rw [List.map_cons, ← inductionHypothesis areRest]
      exact congrArg (· :: rest) isFirst

/-- Layers that are all read are those of the pieces, and there is one. -/
theorem of_parseAll
    {read : String → Except Fault (Option Shadow)}
    {pieces : List String}
    {layers : List Shadow}
    (areRead : parseAll read pieces = .ok (some layers)) :
    layers ≠ [] ∧ ∀ layer ∈ layers, ∃ piece, read piece = .ok (some layer) := by
  obtain ⟨shadows, allRead, afterRead⟩ := bind_eq_ok_iff.mp areRead
  split at afterRead
  · cases pure_eq_ok_iff.mp afterRead
  · rename_i someShadow
    obtain rfl := eq_map_some_of_mapM (pure_eq_ok_iff.mp afterRead)
    refine ⟨by simpa using someShadow, fun layer isLayer => ?_⟩
    obtain ⟨piece, _, isRead⟩ :=
      exists_of_mem_mapM allRead (List.mem_map_of_mem isLayer)
    exact ⟨piece, isRead⟩

/--
A shadow that is read has a layer, and the inset mark of every layer
is a truth value.
-/
theorem canonical_of_parse
    {raw : String}
    {layers : List Shadow}
    (isRead : parse raw = .ok (some layers)) :
    layers ≠ [] ∧ ∀ layer ∈ layers, layer.Canonical := by
  unfold parse at isRead
  simp only at isRead
  split at isRead
  · obtain ⟨nonempty, each⟩ := of_parseAll isRead
    refine ⟨nonempty, fun layer isLayer => ?_⟩
    obtain ⟨piece, isEffect⟩ := each layer isLayer
    exact canonical_of_parseEffect (Except.ok.inj isEffect)
  · obtain ⟨nonempty, each⟩ := of_parseAll isRead
    refine ⟨nonempty, fun layer isLayer => ?_⟩
    obtain ⟨piece, isWritten⟩ := each layer isLayer
    exact canonical_of_parseLayer isWritten

end Shadow

namespace Animation

/-- The easing found so far is not the empty keyword. -/
def Found.Canonical (found : Found) : Prop :=
  found.timing? ≠ some (.keyword "")

/-- A word that names an easing is not the empty one. -/
theorem Found.Canonical.addWord
    {found next : Found}
    {word : List Char}
    (isNext : found.addWord word = .ok next)
    (isCanonical : found.Canonical) :
    next.Canonical := by
  cases Found.takes_of_addWord isNext with
  | easing isListed =>
      intro isEmpty
      rw [Timing.keyword.inj (Option.some.inj isEmpty)] at isListed
      exact absurd isListed (by decide)
  | _ => exact isCanonical

/-- The easing of an animation that is read is not the empty keyword. -/
theorem canonical_of_parse
    {raw : String}
    {animation : Animation}
    (isRead : parse raw = .ok (some animation)) :
    animation.Canonical := by
  unfold parse at isRead
  obtain ⟨found, areTaken, afterWords⟩ := bind_eq_ok_iff.mp isRead
  split at afterWords
  · cases pure_eq_ok_iff.mp afterWords
  · obtain rfl := Option.some.inj (pure_eq_ok_iff.mp afterWords)
    have canonical : found.Canonical :=
      holds_of_foldlM (fun _ _ _ => Found.Canonical.addWord)
        (by simp [Found.Canonical]) areTaken
    exact canonical

end Animation

end DesignTokens
