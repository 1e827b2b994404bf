import DesignTokens.Proofs.Lint.Shapes
import DesignTokens.Proofs.Source.CompactExport.Contents
import DesignTokens.Proofs.Source.Stylesheet.Contents
import DesignTokens.Proofs.Source.VariableExport.Contents
import DesignTokens.Source.Format

namespace DesignTokens

/-!
# The shape of parsed themes

Whatever the format of a source, the collections of its theme have their modes
in order, and every value is a reference or in the shape of its type.  Only the
options for a style sheet can give the default mode a label that is no name.
-/

/--
A theme whose collections have their modes in order and whose
tokens are in shape.
-/
structure Theme.InShape (theme : Theme) : Prop where
  modes : ∀ collection ∈ theme.collections, collection.ModesInOrder
  tokens : ∀ located ∈ theme.walk, located.token.Shaped

/--
A theme of orderly collections is in shape when every token that fits them is.
-/
theorem Theme.inShape_of_orderly
    {theme : Theme}
    {Fits : TokenPath → Token → Prop}
    (orderly : ∀ collection ∈ theme.collections, collection.Orderly Fits)
    (shaped : ∀ path token, Fits path token → token.Shaped) :
    theme.InShape where
  modes collection isCollection :=
    (orderly collection isCollection).toModesInOrder
  tokens located isLocated :=
    shaped located.path located.token (fits_of_mem_walk orderly isLocated)

/-- The theme of a style sheet is in shape when the default mode has a name. -/
theorem Stylesheet.inShape_of_parse
    {source given : Wire}
    {options : Options}
    (areOptions : Options.decode (optionsOf source given) = .ok options)
    {name : String}
    (isNamed : options.defaultMode = .str name)
    {theme : Theme}
    (isParsed : parse Registry.standard source given = .ok theme) :
    theme.InShape := by
  obtain ⟨types, start, areTypes, orderly⟩ :=
    exists_orderly_of_parse areOptions isNamed isParsed
  refine Theme.inShape_of_orderly (fun one isOne => (orderly one isOne).2) ?_
  rintro path token ⟨declaration, _, tag, isRead⟩
  exact (becomes_of_read isRead).2.shaped (fun _ => has_of_typesByName areTypes)

theorem CompactExport.inShape_of_parse
    {source given : Wire}
    {theme : Theme}
    (isParsed : parse Registry.standard source given = .ok theme) :
    theme.InShape := by
  refine Theme.inShape_of_orderly
    (fun one isOne => (orderly_of_parse isParsed isOne).2) ?_
  rintro path token ⟨entry, _, _, isToken⟩
  obtain ⟨tag, isTag, isKnown, shaped, _⟩ := Entry.exists_shape_of_token? isToken
  exact ⟨tag, isTag, isKnown, .inr shaped⟩

theorem VariableExport.inShape_of_parse
    {source given : Wire}
    {theme : Theme}
    (isParsed : parse Registry.standard source given = .ok theme) :
    theme.InShape := by
  obtain ⟨known, _, orderly⟩ := exists_orderly_of_parse isParsed
  refine Theme.inShape_of_orderly orderly ?_
  rintro path token ⟨subject, _, _, value, _, isRead⟩
  exact (shape_of_readValue isRead).1

/--
The options for a style sheet give the default mode a name; other formats
have no such option.
-/
def SourceFormat.NamesDefaultMode (format : SourceFormat) (source given : Wire) :
    Prop :=
  format = .css →
    ∃ options name,
      Stylesheet.Options.decode (Stylesheet.optionsOf source given) = .ok options ∧
        options.defaultMode = .str name

/--
In the theme of a source of any format, the modes of every collection have
distinct names, begin with the default mode and are the labels of its trees in
the same order; the type of every token is known; every value is a reference or
in the shape of its type; and no value rule finds fault with the shape of a
value.
-/
theorem parsed_themes_inShape
    {format : SourceFormat}
    {source given : Wire}
    (isNamed : format.NamesDefaultMode source given)
    {theme : Theme}
    (isParsed : format.parse Registry.standard source given = .ok theme) :
    theme.InShape ∧
      ∀ rule ∈ Lint.valueRules, ∀ registry,
        ∀ finding ∈ (rule.check registry theme).findings,
          ¬ Lint.ShapeFlaw finding.text := by
  have inShape : theme.InShape := by
    cases format with
    | css =>
        obtain ⟨options, name, areOptions, isName⟩ := isNamed rfl
        exact Stylesheet.inShape_of_parse areOptions isName isParsed
    | compact => exact CompactExport.inShape_of_parse isParsed
    | native => exact VariableExport.inShape_of_parse isParsed
  exact ⟨inShape, fun rule isRule registry finding isFinding =>
    Lint.not_shapeFlaw_of_shaped inShape.tokens isRule isFinding⟩

/-- Values of several types and a reference, in two modes. -/
def shapedSheet : Wire :=
  .str
    (":root \x7b --gap: 4px; --ink: #fff; --edge: var(--ink); \x7d " ++
      ".dark \x7b --gap: 8px; \x7d")

/--
The sample style sheet is parsed without options into a theme of
two modes in shape.
-/
theorem parse_shapedSheet :
    SourceFormat.NamesDefaultMode .css shapedSheet .null ∧
      ∃ theme,
        SourceFormat.parse .css Registry.standard shapedSheet .null = .ok theme ∧
          theme.walk.map Located.path = [["gap"], ["ink"], ["edge"], ["gap"]] ∧
          theme.InShape ∧
          ∀ rule ∈ Lint.valueRules, ∀ registry,
            ∀ finding ∈ (rule.check registry theme).findings,
              ¬ Lint.ShapeFlaw finding.text := by
  have isNamed : SourceFormat.NamesDefaultMode .css shapedSheet .null :=
    fun _ => ⟨Stylesheet.Options.plain, "default", Stylesheet.decode_null, rfl⟩
  have shown :
      (SourceFormat.parse .css Registry.standard shapedSheet .null).toOption.map
          (fun theme => theme.walk.map Located.path) =
        some [["gap"], ["ink"], ["edge"], ["gap"]] := by
    decide +kernel
  obtain ⟨theme, isThere, paths⟩ := Option.map_eq_some_iff.mp shown
  have isParsed := eq_ok_of_toOption isThere
  exact ⟨isNamed, theme, isParsed, paths, parsed_themes_inShape isNamed isParsed⟩

end DesignTokens
