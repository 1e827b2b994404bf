import DesignTokens.Proofs.Source.CompactExport
import DesignTokens.Proofs.Source.Stylesheet

namespace DesignTokens

/-!
# Validated texts that are parsed

Validation looks at a source as a whole and not at its values, so it lets
through values that end parsing with a fault.  Without options, nothing else
comes between validation and a theme.
-/

open DesignTokens.Text

/--
A style sheet, and likewise a map from paths to texts, is parsed without options
exactly when it is let through and none of its values trips.
-/
theorem accepted_sources_parse_unless_tripping
    (css : String)
    (source : Wire) :
    (Succeeds (Stylesheet.parse Registry.standard (.str css) .null) ↔
      Stylesheet.reasons (.str css) = [] ∧
        ∀ declaration ∈ Stylesheet.extract Stylesheet.Kinds.all css,
          ¬ declaration.Trips) ∧
    (Succeeds (CompactExport.parse Registry.standard source .null) ↔
      CompactExport.reasons source = [] ∧
        ∀ entry ∈ CompactExport.entries source, ¬ entry.Trips) :=
  ⟨Stylesheet.succeeds_parse_iff, CompactExport.succeeds_parse_iff⟩

/-- A raised digit is digit-like and no numeral. -/
theorem noNumeral_raised :
    NoNumeral ['²'] where
  digitLike := by decide
  unreadable := .inl (by decide)

/-- A style sheet with a raised digit as a value. -/
def raisedSheet : String :=
  ":root \x7b --a: ²; \x7d"

/-- An export with a raised digit where a font weight may stand. -/
def raisedExport : Wire :=
  .obj [("weight", .str "²")]

/-- A raised digit is let through as a value, and parsing ends with a fault. -/
theorem raised_accepted_not_parsed :
    (Stylesheet.reasons (.str raisedSheet) = [] ∧
      ¬ Succeeds (Stylesheet.parse Registry.standard (.str raisedSheet) .null)) ∧
    (CompactExport.reasons raisedExport = [] ∧
      ¬ Succeeds (CompactExport.parse Registry.standard raisedExport .null)) := by
  refine ⟨⟨by decide +kernel, fun parsed => ?_⟩,
    ⟨by decide +kernel, fun parsed => ?_⟩⟩
  · have clear := (Stylesheet.succeeds_parse_iff.mp parsed).2
    have isOnly : (Stylesheet.extract Stylesheet.Kinds.all raisedSheet).map
        Stylesheet.Declaration.value = ["²"] := by
      decide +kernel
    obtain ⟨declaration, isDeclaration, isRaised⟩ :
        ∃ declaration ∈ Stylesheet.extract Stylesheet.Kinds.all raisedSheet,
          declaration.value = "²" := by
      rw [← List.mem_map, isOnly]
      exact List.mem_singleton_self _
    refine clear declaration isDeclaration ?_
    rw [Stylesheet.Declaration.Trips, isRaised]
    have isTrimmed : trimChars "²".toList = ['²'] := by decide +kernel
    exact ⟨by decide +kernel, .inr (isTrimmed ▸ noNumeral_raised)⟩
  · have clear := (CompactExport.succeeds_parse_iff.mp parsed).2 ⟨"weight", "²"⟩
    have isPrimary : CompactExport.primaryValue "²" = "²" := by decide +kernel
    refine clear (List.mem_singleton_self _) (.inl (.inr ?_))
    simp only [isPrimary]
    have isStripped : (⟨"weight", "²"⟩ : CompactContext).stripped = ['²'] :=
      by decide +kernel
    exact ⟨by decide +kernel, by decide +kernel, by decide +kernel,
      isStripped ▸ noNumeral_raised⟩

end DesignTokens
