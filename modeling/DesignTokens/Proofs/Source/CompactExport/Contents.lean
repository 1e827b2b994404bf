import DesignTokens.Proofs.Registry.Shapes
import DesignTokens.Proofs.Source.CompactExport
import DesignTokens.Proofs.Theme.Building

namespace DesignTokens.CompactExport

/-!
# What parsed compact exports hold

Every token of a parsed export is that of one of its entries, at the path of the
entry.  Each collection has the one mode that such exports have.
-/

/-- A token and its path are those of one of the entries. -/
def IsReading
    (registry : Registry)
    (entries : List Entry)
    (path : TokenPath)
    (token : Token) : Prop :=
  ∃ entry ∈ entries, entry.tokenPath = path ∧
    entry.token? registry = .ok (some token)

/-- Everything that is placed is the token of an entry. -/
def Placements.Hold
    (registry : Registry)
    (entries : List Entry)
    (placed : Placements) : Prop :=
  ∀ collection ∈ placed, ∀ placement ∈ collection.2,
    IsReading registry entries placement.1 placement.2

/-- Placing the token of an entry keeps this so. -/
theorem Placements.Hold.place
    {registry : Registry}
    {entries : List Entry}
    {placed : Placements}
    (hold : placed.Hold registry entries)
    {entry : Entry}
    (isEntry : entry ∈ entries)
    {token? : Option Token}
    (isToken : entry.token? registry = .ok token?) :
    (CompactExport.place entry token? placed).Hold registry entries := by
  intro collection isCollection placement isPlacement
  rcases Wire.mem_of_mem_insert isCollection with rfl | wasThere
  · rcases List.mem_append.mp isPlacement with isKnown | isAdded
    · cases isListed : Wire.lookup? entry.collection placed with
      | none => simp [isListed] at isKnown
      | some known =>
          rw [isListed] at isKnown
          exact hold _ (mem_of_lookup? isListed) placement isKnown
    · cases token? with
      | none => cases isAdded
      | some token =>
          obtain rfl := List.mem_singleton.mp isAdded
          exact ⟨entry, isEntry, rfl, isToken⟩
  · exact hold collection wasThere placement isPlacement

theorem hold_placements
    {registry : Registry}
    {entries : List Entry}
    {placed : Placements}
    (arePlaced : placements registry entries = .ok placed) :
    placed.Hold registry entries := by
  refine holds_of_foldlM_of_mem ?_ (fun _ isMember => by cases isMember) arePlaced
  intro entry isEntry known next step hold
  obtain ⟨token?, isToken, isNext⟩ := bind_eq_ok_iff.mp step
  obtain rfl := pure_eq_ok_iff.mp isNext
  exact hold.place isEntry isToken

/--
The collections of a parsed export are orderly and hold tokens of its entries.
-/
theorem orderly_of_parse
    {registry : Registry}
    {source given : Wire}
    {theme : Theme}
    (isParsed : parse registry source given = .ok theme)
    {collection : Collection}
    (isCollection : collection ∈ theme.collections) :
    (∃ name, collection.description = .str ("Design tokens from " ++ name)) ∧
      collection.Orderly (IsReading registry (entries source)) := by
  unfold parse at isParsed
  obtain ⟨_, _, afterAccept⟩ := bind_eq_ok_iff.mp isParsed
  obtain ⟨options, _, afterOptions⟩ := bind_eq_ok_iff.mp afterAccept
  obtain ⟨placed, arePlaced, afterPlaced⟩ := bind_eq_ok_iff.mp afterOptions
  obtain ⟨collections, areBuilt, isTheme⟩ := bind_eq_ok_iff.mp afterPlaced
  obtain rfl := pure_eq_ok_iff.mp isTheme
  obtain ⟨one, isPlaced, isBuilt⟩ := exists_of_mem_mapM areBuilt isCollection
  have isOneMode :
      Collection.build (.str one.1) (Collection.named [(defaultMode, one.2)])
        (.str defaultMode) (.str ("Design tokens from " ++ one.1)) =
          .ok collection :=
    lift_eq_ok_iff.mp isBuilt
  have areReadings : ∀ mode ∈ [(defaultMode, one.2)], ∀ entry ∈ mode.2,
      IsReading registry (entries source) entry.1 entry.2 := by
    intro mode isMode entry isEntry
    obtain rfl := List.mem_singleton.mp isMode
    exact hold_placements arePlaced one isPlaced entry isEntry
  obtain ⟨isDescription, orderly⟩ :=
    Collection.orderly_of_build (by simp) areReadings isOneMode
  exact ⟨⟨one.1, isDescription⟩, orderly⟩

/-- The token of an entry is in the shape of its type. -/
theorem Entry.exists_shape_of_token?
    {entry : Entry}
    {token : Token}
    (isToken : entry.token? Registry.standard = .ok (some token)) :
    ∃ tag, token.type = .str tag ∧ Registry.standard.has tag = true ∧
      token.value.Shaped tag ∧
      token.description = .null := by
  unfold Entry.token? at isToken
  obtain ⟨tag, _, afterTag⟩ := bind_eq_ok_iff.mp isToken
  obtain ⟨handler, isHandler, afterHandler⟩ := bind_eq_ok_iff.mp afterTag
  obtain ⟨value?, isValue, afterValue⟩ := bind_eq_ok_iff.mp afterHandler
  obtain ⟨sameTag, isBuiltin⟩ := Registry.get_standard_eq_ok isHandler
  obtain rfl := Wire.str.inj sameTag
  split at afterValue
  · obtain rfl := Option.some.inj (pure_eq_ok_iff.mp afterValue)
    exact ⟨handler.tag, rfl,
      Registry.has_standard_iff.mpr ⟨handler, isBuiltin, rfl⟩,
      Handler.shaped_of_parseCompact isBuiltin (lift_eq_ok_iff.mp isValue), rfl⟩
  · split at afterValue
    · cases pure_eq_ok_iff.mp afterValue
    · obtain rfl := Option.some.inj (pure_eq_ok_iff.mp afterValue)
      exact ⟨"string", rfl, Registry.has_string, rfl, rfl⟩

end DesignTokens.CompactExport
