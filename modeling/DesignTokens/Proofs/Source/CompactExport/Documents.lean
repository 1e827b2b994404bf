import DesignTokens.Proofs.Source.CompactExport.Contents
import DesignTokens.Proofs.Source.Documents
import DesignTokens.Proofs.Theme.ReadBack

namespace DesignTokens

/-!
# Documents of parsed compact exports

A compact export may use any segments and any steps of keyframes.  Documents
leave members with a reserved name to other tools, and list the steps of
keyframes and the properties of a step by their names.  The theme of an export
is read back from its document exactly when it has no need of what documents
cannot hold.
-/

/-- A token and its path hold nothing that a document leaves out or joins. -/
structure Located.Listed (located : Located) : Prop where
  /-- No segment of the path is a name for other tools. -/
  free : ∀ segment ∈ located.path, Node.isReserved segment = false
  /--
  Selectors of keyframes differ, as do properties of a step; none is the
  name of a reference.
  -/
  steps : ∀ steps, located.token.value = .keyframes steps → steps.Canonical

instance (keyframes : Keyframes) : Decidable keyframes.Canonical :=
  decidable_of_iff
    ((keyframes.steps.map KeyframeStep.selector).Nodup ∧
      (∀ step ∈ keyframes.steps, (step.properties.map Prod.fst).Nodup) ∧
      "$ref" ∉ keyframes.steps.map KeyframeStep.selector)
    ⟨fun ⟨selectors, properties, notReference⟩ =>
      ⟨selectors, properties, notReference⟩,
      fun canonical =>
        ⟨canonical.selectors, canonical.properties, canonical.notReference⟩⟩

/-- Whether a value, if it is one of keyframes, has canonical ones. -/
instance (value : TokenValue) :
    Decidable (∀ steps, value = .keyframes steps → steps.Canonical) :=
  match value with
  | .keyframes steps =>
      decidable_of_iff steps.Canonical
        ⟨fun canonical _ isSteps => TokenValue.keyframes.inj isSteps ▸ canonical,
          fun each => each steps rfl⟩
  | .plain _ | .color _ | .dimension _ | .duration _ | .cubicBezier
    _ | .fontFamily _
  | .typography _ | .shadow _ | .shadows _ | .border _ | .gradient _ | .transition _
  | .animation _ | .reference _ =>
      isTrue fun _ isSteps => nomatch isSteps

instance (located : Located) : Decidable located.Listed :=
  decidable_of_iff
    ((∀ segment ∈ located.path, Node.isReserved segment = false) ∧
      ∀ steps, located.token.value = .keyframes steps → steps.Canonical)
    ⟨fun ⟨free, steps⟩ => ⟨free, steps⟩, fun listed => ⟨listed.free, listed.steps⟩⟩

namespace CompactExport

/-- The theme comes from the file of the options, and has no description. -/
theorem record_of_parse
    {registry : Registry}
    {source given : Wire}
    {options : Options}
    (areOptions : Options.decode given = .ok options)
    {theme : Theme}
    (isParsed : parse registry source given = .ok theme) :
    theme.provenance? =
      some ⟨.str "figma-mcp-defs", options.fileKey, .null, .str "1.0.0"⟩ ∧
      theme.description = .null := by
  unfold parse at isParsed
  rw [areOptions] at isParsed
  obtain ⟨_, _, afterAccept⟩ := bind_eq_ok_iff.mp isParsed
  simp only [lift_ok, ok_bind] at afterAccept
  obtain ⟨_, _, afterPlaced⟩ := bind_eq_ok_iff.mp afterAccept
  obtain ⟨_, _, isTheme⟩ := bind_eq_ok_iff.mp afterPlaced
  obtain rfl := pure_eq_ok_iff.mp isTheme
  exact ⟨rfl, rfl⟩

theorem Entry.canonical_of_token?
    {entry : Entry}
    {token : Token}
    (isToken : entry.token? Registry.standard = .ok (some token))
    (stepsCanonical : ∀ steps, token.value = .keyframes steps → steps.Canonical) :
    token.Canonical := by
  obtain ⟨tag, isTag, _, shaped, noDescription⟩ := exists_shape_of_token? isToken
  exact ⟨isTag ▸ shaped.canonical stepsCanonical, .inl noDescription⟩

/--
The theme of an export is canonical when its tokens hold nothing that
documents leave out.
-/
theorem canonical_of_parse
    {source given : Wire}
    {options : Options}
    (areOptions : Options.decode given = .ok options)
    (fileKey : options.fileKey.NullOrPresent)
    {theme : Theme}
    (isParsed : parse Registry.standard source given = .ok theme)
    (listed : ∀ located ∈ theme.walk, located.Listed) :
    theme.Canonical := by
  obtain ⟨isProvenance, noDescription⟩ := record_of_parse areOptions isParsed
  refine ⟨fun collection isCollection => ?_, ?_, .inl noDescription⟩
  · obtain ⟨⟨name, isDescription⟩, orderly⟩ :=
      orderly_of_parse isParsed isCollection
    refine Collection.Orderly.canonical (orderly.mono ?_) ?_
    · rintro tree isTree visit isVisit ⟨entry, _, _, isToken⟩
      have isListed := listed ⟨collection, tree.1, visit.1, visit.2⟩
        (Theme.mem_walk_iff.mpr ⟨isCollection, tree.2, isTree, isVisit⟩)
      exact ⟨isListed.free, Entry.canonical_of_token? isToken isListed.steps⟩
    · rw [isDescription]
      exact .inr (by simp [Wire.isTruthy])
  · intro provenance isThere
    obtain rfl := Option.some.inj (isProvenance.symm.trans isThere)
    exact ⟨fileKey, .inl rfl⟩

/--
The tokens of a theme of an export that is read back hold nothing that
documents leave out.
-/
theorem listed_of_readBack
    {source given : Wire}
    {theme : Theme}
    (isParsed : parse Registry.standard source given = .ok theme)
    (readBack : theme.ReadBack)
    {located : Located}
    (isLocated : located ∈ theme.walk) :
    located.Listed := by
  have recorded := readBack.recorded isLocated
  obtain ⟨entry, _, _, isToken⟩ :=
    Theme.fits_of_mem_walk (fun one isOne => (orderly_of_parse isParsed isOne).2)
      isLocated
  obtain ⟨tag, isTag, _, shaped, _⟩ := Entry.exists_shape_of_token? isToken
  refine ⟨recorded.free, fun steps isSteps => ?_⟩
  rw [isSteps] at shaped
  obtain rfl : tag = "keyframes" := shaped
  exact recorded.token.canonical_keyframes isTag isSteps

/--
Writing the theme of an export and reading its document gives the theme back,
order included, exactly when the options give no empty file key, no segment of a
path is a reserved name, and all keyframes are canonical.
-/
theorem decode_encode_parse_iff
    {source given : Wire}
    {options : Options}
    (areOptions : Options.decode given = .ok options)
    {theme : Theme}
    (isParsed : parse Registry.standard source given = .ok theme) :
    (theme.encode .standard >>= Theme.decode .standard) = .ok theme ↔
      options.fileKey.NullOrPresent ∧ ∀ located ∈ theme.walk, located.Listed := by
  constructor
  · intro readBack
    have isProvenance := (record_of_parse areOptions isParsed).1
    exact ⟨(Theme.ReadBack.canonical_provenance readBack isProvenance).fileKey,
      fun _ isLocated => listed_of_readBack isParsed readBack isLocated⟩
  · rintro ⟨fileKey, listed⟩
    exact (canonical_of_parse areOptions fileKey isParsed listed).readBack

/-- Keyframes of two steps beside a token without a collection of its own. -/
def fadingExport : Wire :=
  .obj
    [ ("Motion/Keyframes/Fade In",
      .str "from: opacity none; to: opacity full, color none"),
      ("/note", .str "hello") ]

/--
The theme of the sample export holds nothing that documents leave out,
and is read back.
-/
theorem decode_encode_parse_fadingExport :
    ∃ options theme,
      Options.decode .null = .ok options ∧
        parse Registry.standard fadingExport .null = .ok theme ∧
        theme.walk.map Located.path = [["keyframes", "fade-in"], ["note"]] ∧
        (theme.encode .standard >>= Theme.decode .standard) = .ok theme := by
  have shown :
      (parse Registry.standard fadingExport .null).toOption.map
          (fun theme =>
            (theme.walk.map Located.path,
              decide (∀ located ∈ theme.walk, located.Listed))) =
        some ([["keyframes", "fade-in"], ["note"]], true) := by
    rw [Registry.standard_eq]
    decide +kernel
  obtain ⟨theme, isThere, areShown⟩ := Option.map_eq_some_iff.mp shown
  obtain ⟨paths, allListed⟩ := Prod.mk.inj areShown
  have isParsed := eq_ok_of_toOption isThere
  have areOptions : Options.decode .null = .ok ⟨.str "Untitled", .null⟩ := rfl
  exact ⟨_, theme, areOptions, isParsed, paths,
    (decode_encode_parse_iff areOptions isParsed).mpr
      ⟨.inl rfl, of_decide_eq_true allListed⟩⟩

/-- A token whose name is reserved. -/
def reservedExport : Wire :=
  .obj [("Colors/$x", .str "hello")]

/--
A reserved name, a selector that occurs again, a property that occurs again, and
a selector with the name of a reference.
-/
def unlistedExports : List Wire :=
  [ reservedExport,
    .obj [("Motion/keyframes", .str "from: opacity none; from: opacity full")],
    .obj [("Motion/keyframes", .str "from: opacity none opacity full")],
    .obj [("Motion/keyframes", .str "$ref: opacity none")] ]

/--
Each of these exports is parsed into a theme that is not read back
from its document.
-/
theorem exists_not_readBack_of_mem_unlistedExports
    {source : Wire}
    (isUnlisted : source ∈ unlistedExports) :
    ∃ theme,
      parse Registry.standard source .null = .ok theme ∧
        (theme.encode .standard >>= Theme.decode .standard) ≠ .ok theme := by
  have shown :
      ∀ source ∈ unlistedExports,
        (parse Registry.standard source .null).toOption.map
            (fun theme => decide (∀ located ∈ theme.walk, located.Listed)) =
          some false := by
    rw [Registry.standard_eq]
    decide
  obtain ⟨theme, isThere, notListed⟩ :=
    Option.map_eq_some_iff.mp (shown source isUnlisted)
  have isParsed := eq_ok_of_toOption isThere
  exact ⟨theme, isParsed, fun readBack =>
    of_decide_eq_false notListed fun _ isLocated =>
      listed_of_readBack isParsed readBack isLocated⟩

/--
The theme of the export with a reserved name is not read back from its document.
-/
theorem decode_encode_ne_reservedExport :
    ∃ theme,
      parse Registry.standard reservedExport .null = .ok theme ∧
        (theme.encode .standard >>= Theme.decode .standard) ≠ .ok theme :=
  exists_not_readBack_of_mem_unlistedExports (by simp [unlistedExports])

end CompactExport

end DesignTokens
