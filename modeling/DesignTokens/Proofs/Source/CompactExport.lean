import DesignTokens.Proofs.Registry.Detection
import DesignTokens.Proofs.Theme.Building
import DesignTokens.Source.CompactExport

namespace DesignTokens.CompactExport

/-!
# Parsing compact exports without a fault

An export that is let through is parsed when the type of every entry can be
detected and the handler of that type reads the value.  Placing the tokens asks
for nothing more: the path of a token is never empty.
-/

open DesignTokens.Text

namespace Entry

/--
Reading an entry ends with a fault: its type cannot be detected, or its handler
stumbles over the value.
-/
def Trips (entry : Entry) : Prop :=
  (⟨entry.path, primaryValue entry.raw⟩ : CompactContext).Misleads ∨
    ∃ tag, entry.tag Registry.standard = .ok tag ∧
      Handler.Stumbles tag (primaryValue entry.raw)

theorem tokenPath_ne_nil
    (entry : Entry) :
    entry.tokenPath ≠ [] :=
  List.append_ne_nil_of_right_ne_nil _ (List.cons_ne_nil _ _)

/-- Once its type is detected, an entry is read unless the handler stumbles. -/
theorem succeeds_parseCompact_of_tag
    {entry : Entry}
    {tag : String}
    (isTag : entry.tag Registry.standard = .ok tag) :
    ∃ handler, Registry.standard.get (.str tag) = .ok handler ∧
      (Succeeds (handler.parseCompact (primaryValue entry.raw)) ↔
        ¬ Handler.Stumbles tag (primaryValue entry.raw)) := by
  unfold Entry.tag at isTag
  generalize primaryValue entry.raw = value at isTag ⊢
  obtain ⟨handler, isBuiltin, sameTag, claimed⟩ :=
    Registry.exists_of_detectCompact isTag
  have reads := Handler.succeeds_parseCompact_iff isBuiltin claimed
  rw [sameTag] at reads
  have isHandler := Registry.get_standard isBuiltin
  rw [sameTag] at isHandler
  exact ⟨handler, isHandler, reads⟩

/-- An entry is read unless it trips. -/
theorem succeeds_token?_iff
    {entry : Entry} :
    Succeeds (entry.token? Registry.standard) ↔ ¬ entry.Trips := by
  have detected : Succeeds (entry.tag Registry.standard) ↔
      ¬ (⟨entry.path, primaryValue entry.raw⟩ : CompactContext).Misleads :=
    Registry.succeeds_detectCompact_iff
  rw [Trips, not_or, ← detected]
  unfold token?
  simp only [succeeds_bind_iff, lift_eq_ok_iff]
  constructor
  · rintro ⟨tag, isTag, handler, isHandler, read?, isRead, _⟩
    refine ⟨⟨tag, isTag⟩, ?_⟩
    rintro ⟨other, isOther, stumbles⟩
    cases isTag.symm.trans isOther
    -- The handler that was asked is the one that the tag names.
    obtain ⟨found, isFound, reads⟩ := succeeds_parseCompact_of_tag isTag
    cases isHandler.symm.trans isFound
    exact reads.mp ⟨read?, isRead⟩ stumbles
  · rintro ⟨⟨tag, isTag⟩, clear⟩
    obtain ⟨handler, isHandler, reads⟩ := succeeds_parseCompact_of_tag isTag
    obtain ⟨read?, isRead⟩ :=
      reads.mpr (fun stumbles => clear ⟨tag, isTag, stumbles⟩)
    refine ⟨tag, isTag, handler, isHandler, read?, isRead, ?_⟩
    cases read? with
    | some read => exact succeeds_pure _
    | none =>
        simp only
        split <;> exact succeeds_pure _

end Entry

/-- Everything that is placed in a collection can be placed in a tree. -/
def Placements.Placeable (placed : Placements) : Prop :=
  ∀ collection ∈ placed, collection.2.Placeable

/-- Placing an entry leaves everything placeable. -/
theorem Placements.Placeable.place
    {placed : Placements}
    (placeable : placed.Placeable)
    (entry : Entry)
    (token? : Option Token) :
    (CompactExport.place entry token? placed).Placeable := by
  intro collection isCollection
  rcases Wire.mem_of_mem_insert isCollection with rfl | wasThere
  · intro placement isPlacement
    rcases List.mem_append.mp isPlacement with isKnown | isAdded
    · cases isListed : Wire.lookup? entry.collection placed with
      | none => simp [isListed] at isKnown
      | some known =>
          rw [isListed] at isKnown
          exact placeable _ (mem_of_lookup? isListed) placement isKnown
    · cases token? with
      | none => cases isAdded
      | some token =>
          obtain rfl := List.mem_singleton.mp isAdded
          exact entry.tokenPath_ne_nil
  · exact placeable collection wasThere

/-- What is placed can be placed in trees. -/
theorem placeable_placements
    {registry : Registry}
    {entries : List Entry}
    {placed : Placements}
    (succeeded : placements registry entries = .ok placed) :
    placed.Placeable := by
  refine holds_of_foldlM ?_ (fun _ isMember => by cases isMember) succeeded
  intro known entry next step placeable
  obtain ⟨token?, _, isNext⟩ := bind_eq_ok_iff.mp step
  obtain rfl := pure_eq_ok_iff.mp isNext
  exact placeable.place entry token?

/-- Entries are placed unless one of them trips. -/
theorem succeeds_placements_iff
    {entries : List Entry} :
    Succeeds (placements Registry.standard entries) ↔
      ∀ entry ∈ entries, ¬ entry.Trips := by
  unfold placements
  refine succeeds_foldlM_iff (fun known entry => ?_) []
  rw [succeeds_bind_pure_iff, Entry.succeeds_token?_iff]

theorem succeeds_collections
    {placed : Placements}
    (placeable : placed.Placeable) :
    Succeeds
      (placed.mapM (fun one => Failure.lift (collectionOf one.1 one.2))) := by
  refine succeeds_mapM_iff.mpr (fun collection isCollection => ?_)
  have isKey : (Wire.str defaultMode).isKey = true := rfl
  have built : Succeeds (collectionOf collection.1 collection.2) := by
    refine Collection.succeeds_build ?_ isKey _ _
    intro mode isMode
    obtain rfl := List.mem_singleton.mp isMode
    exact placeable collection isCollection
  exact succeeds_lift_iff.mpr built

/-- The options of a source that comes without any. -/
def Options.plain : Options :=
  ⟨.str "Untitled", .null⟩

/-- Without options, a theme has no name of its own. -/
theorem decode_null :
    Options.decode .null = .ok Options.plain :=
  rfl

/--
An export is parsed exactly when nothing speaks against it and none of its
entries trips.
-/
theorem succeeds_parse_iff
    {source : Wire} :
    Succeeds (parse Registry.standard source .null) ↔
      reasons source = [] ∧ ∀ entry ∈ entries source, ¬ entry.Trips := by
  rw [← succeeds_placements_iff, ← @succeeds_accept_iff sourceName]
  unfold parse
  refine succeeds_bind_iff_and (fun _ => ?_)
  simp only [decode_null, lift_ok, ok_bind]
  rw [succeeds_bind_iff]
  constructor
  · rintro ⟨placed, arePlaced, _⟩
    exact ⟨placed, arePlaced⟩
  · rintro ⟨placed, arePlaced⟩
    refine ⟨placed, arePlaced, ?_⟩
    refine succeeds_bind_pure_iff.mpr ?_
    exact succeeds_collections (placeable_placements arePlaced)

end DesignTokens.CompactExport
