import DesignTokens.Proofs.Source.Documents
import DesignTokens.Proofs.Source.Stylesheet.Contents
import DesignTokens.Proofs.Source.Stylesheet.Names
import DesignTokens.Proofs.Theme.ReadBack

namespace DesignTokens.Stylesheet

/-!
# Documents of parsed style sheets

The theme of a style sheet is read back from its document, order included.  Its
names are names of properties, its values are in the shape of their types, and
no value of a property looks like keyframes.
-/

open Text

/-- A declaration is read as a canonical token. -/
theorem Becomes.canonical
    {types : List (String × String)}
    {start : String}
    {declaration : Declaration}
    {token : Token}
    (becomes : Becomes types start declaration token) :
    token.Canonical := by
  cases becomes with
  | @reference target isVariable =>
      refine ⟨.reference ?_, .inl rfl⟩
      have bare : ¬ Reference.Braced (TokenPath.key (pathOf start target)) :=
        not_braced_key fun _ =>
          nameChars_of_mem_pathOf (nameChars_of_variableOf? isVariable)
      rwa [Reference.ofText, Reference.stripBraces_of_not_braced bare,
        String.ofList_toList]
  | @value handler value isBuiltin isType isValue =>
      have shaped : value.Shaped handler.tag :=
        Handler.shaped_of_parseCompact isBuiltin isValue
      obtain ⟨other, looksLike, sameTag⟩ := exists_looksLike_of_typeOf isType
      refine ⟨shaped.canonical fun steps isSteps => ?_, .inl rfl⟩
      subst isSteps
      exact (looksLike.ne_keyframes (sameTag.trans shaped)).elim
  | text => exact ⟨.plain (by decide) rfl, .inl rfl⟩

/--
A declaration with a name is read as a canonical token at a path without
reserved segments.
-/
theorem recordable_of_read
    {types : List (String × String)}
    {start : String}
    {declaration : Declaration}
    (nameChars : NameChars declaration.name.toList)
    {reading : Reading}
    (isRead : read Registry.standard types start declaration = .ok reading) :
    Entries.Recordable reading.path reading.token := by
  obtain ⟨isPath, becomes⟩ := becomes_of_read isRead
  refine ⟨fun segment isSegment => ?_, becomes.canonical⟩
  rw [isPath] at isSegment
  exact (nameChars_of_mem_pathOf nameChars isSegment).not_reserved

/-- Where a theme comes from, and what it is described as. -/
theorem record_of_parse
    {registry : Registry}
    {source given : Wire}
    {theme : Theme}
    (isParsed : parse registry source given = .ok theme) :
    theme.provenance? = some (Provenance.ofSource "css") ∧
      theme.description = .str "Design tokens parsed from CSS" := by
  unfold parse at isParsed
  obtain ⟨_, _, afterAccept⟩ := bind_eq_ok_iff.mp isParsed
  obtain ⟨_, _, afterOptions⟩ := bind_eq_ok_iff.mp afterAccept
  obtain ⟨_, _, afterReadings⟩ := bind_eq_ok_iff.mp afterOptions
  obtain ⟨_, _, isTheme⟩ := bind_eq_ok_iff.mp afterReadings
  obtain rfl := pure_eq_ok_iff.mp isTheme
  exact ⟨rfl, rfl⟩

/-- The theme of a style sheet is canonical when the default mode has a name. -/
theorem canonical_of_parse
    {source given : Wire}
    {options : Options}
    (areOptions : Options.decode (optionsOf source given) = .ok options)
    {name : String}
    (isNamed : options.defaultMode = .str name)
    {theme : Theme}
    (isParsed : parse Registry.standard source given = .ok theme) :
    theme.Canonical := by
  obtain ⟨types, start, _, orderly⟩ :=
    exists_orderly_of_parse areOptions isNamed isParsed
  obtain ⟨isProvenance, isDescription⟩ := record_of_parse isParsed
  refine ⟨fun collection isCollection => ?_, ?_, ?_⟩
  · obtain ⟨noDescription, isOrderly⟩ := orderly collection isCollection
    refine Collection.Orderly.canonical (isOrderly.mono ?_) (.inl noDescription)
    rintro tree _ entry _ ⟨declaration, isDeclared, tag, isRead⟩
    exact recordable_of_read (nameChars_of_mem_extract isDeclared) isRead
  · intro provenance isThere
    obtain rfl := Option.some.inj (isProvenance.symm.trans isThere)
    exact ⟨.inl rfl, .inl rfl⟩
  · rw [isDescription]
    exact .inr rfl

/--
When options give the default mode a name, writing the theme of a style sheet
succeeds, and reading its document gives the theme back, order included.
-/
theorem decode_encode_of_parse
    {source given : Wire}
    {options : Options}
    (areOptions : Options.decode (optionsOf source given) = .ok options)
    {name : String}
    (isNamed : options.defaultMode = .str name)
    {theme : Theme}
    (isParsed : parse Registry.standard source given = .ok theme) :
    (theme.encode .standard >>= Theme.decode .standard) = .ok theme :=
  (canonical_of_parse areOptions isNamed isParsed).readBack

/--
A compound of two words, references to one property and to none, and a
text in two schemes.
-/
def linkedSheet : Wire :=
  .str
    (":root \x7b --font-size-sm: 4px; --edge: var(--font-size-sm, 1px); " ++
      "--lost: var(--gone); \x7d" ++
      ".dark \x7b --edge: var(--edge); --note: hello; \x7d")

/--
The sample style sheet is parsed without options, and its theme is read back
from its document.
-/
theorem decode_encode_parse_linkedSheet :
    ∃ options theme,
      Options.decode (optionsOf linkedSheet .null) = .ok options ∧
        options.defaultMode = .str "default" ∧
        parse Registry.standard linkedSheet .null = .ok theme ∧
        theme.walk.map Located.path =
          [["fontSize", "sm"], ["edge"], ["lost"], ["edge"], ["note"]] ∧
        (theme.encode .standard >>= Theme.decode .standard) = .ok theme := by
  have areOptions :
      Options.decode (optionsOf linkedSheet .null) = .ok Options.plain :=
    decode_null
  have shown :
      (parse Registry.standard linkedSheet .null).toOption.map
          (fun theme => theme.walk.map Located.path) =
        some [["fontSize", "sm"], ["edge"], ["lost"], ["edge"], ["note"]] := by
    decide +kernel
  obtain ⟨theme, isThere, paths⟩ := Option.map_eq_some_iff.mp shown
  have isParsed := eq_ok_of_toOption isThere
  exact ⟨Options.plain, theme, areOptions, rfl, isParsed, paths,
    decode_encode_of_parse areOptions rfl isParsed⟩

end DesignTokens.Stylesheet
