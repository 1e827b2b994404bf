import DesignTokens.Proofs.Registry.Shapes
import DesignTokens.Proofs.Source.Stylesheet.Schemes
import DesignTokens.Proofs.Theme.Building

namespace DesignTokens.Stylesheet

/-!
# What parsed style sheets hold

Every token of a parsed style sheet is how one of its declarations is read, and
stands at the path that the declaration gives it.  A value that is read is in
the shape of its type; a value that cannot be read is kept as a text.
-/

/-- A token and its path are how one of the declarations is read. -/
def IsReading
    (registry : Registry)
    (types : List (String × String))
    (start : String)
    (declarations : List Declaration)
    (path : TokenPath)
    (token : Token) : Prop :=
  ∃ declaration ∈ declarations, ∃ tag,
    read registry types start declaration = .ok ⟨declaration, tag, path, token⟩

/-- The modes of some readings, under the name of the default mode. -/
def namedModes (name : String) (readings : List Reading) :
    List (String × Entries) :=
  if (entriesOf true readings).isEmpty then [(name, entriesOf false readings)]
  else if name = darkMode then [(name, entriesOf true readings)]
  else [(name, entriesOf false readings), (darkMode, entriesOf true readings)]

/-- Under a name for the default mode, all modes have names. -/
theorem modesOf_eq_named
    {options : Options}
    {name : String}
    (isNamed : options.defaultMode = .str name)
    (readings : List Reading) :
    modesOf options readings = Collection.named (namedModes name readings) := by
  unfold modesOf namedModes
  rw [isNamed]
  simp only [Wire.same_str, beq_iff_eq]
  split
  · rfl
  · split <;> rfl

theorem nodup_namedModes
    (name : String)
    (readings : List Reading) :
    ((namedModes name readings).map Prod.fst).Nodup := by
  unfold namedModes
  split
  · simp
  · split
    · simp
    · rename_i otherName
      simpa using otherName

/-- What is placed in a mode comes from a reading. -/
theorem exists_reading_of_mem_namedModes
    {name : String}
    {readings : List Reading}
    {mode : String × Entries}
    (isMode : mode ∈ namedModes name readings)
    {entry : TokenPath × Token}
    (isEntry : entry ∈ mode.2) :
    ∃ reading ∈ readings, reading.entry = entry := by
  obtain ⟨dark, isScheme⟩ : ∃ dark, mode.2 = entriesOf dark readings := by
    unfold namedModes at isMode
    split at isMode
    · exact ⟨false, by rw [List.mem_singleton.mp isMode]⟩
    · split at isMode
      · exact ⟨true, by rw [List.mem_singleton.mp isMode]⟩
      · rcases List.mem_pair.mp isMode with rfl | rfl
        · exact ⟨false, rfl⟩
        · exact ⟨true, rfl⟩
  rw [isScheme] at isEntry
  obtain ⟨reading, isKept, rfl⟩ := List.mem_map.mp isEntry
  exact ⟨reading, (List.mem_filter.mp isKept).1, rfl⟩

/--
The collection of a parsed style sheet is orderly and holds readings of
its declarations.
-/
theorem exists_orderly_of_parse
    {registry : Registry}
    {source given : Wire}
    {options : Options}
    (areOptions : Options.decode (optionsOf source given) = .ok options)
    {name : String}
    (isNamed : options.defaultMode = .str name)
    {theme : Theme}
    (isParsed : parse registry source given = .ok theme) :
    ∃ types start,
      typesByName ((extract options.kinds (textOf source)).map
          (fun one => (one.name, one.value))) = .ok types ∧
        ∀ collection ∈ theme.collections,
          collection.description = .null ∧
            collection.Orderly
              (IsReading registry types start
                (extract options.kinds (textOf source))) := by
  obtain ⟨readings, collection, areRead, isBuilt, isOnly⟩ :=
    exists_readings_of_parse areOptions isParsed
  obtain ⟨types, start, areTypes, allRead⟩ := exists_types_of_readAll areRead
  unfold collectionOf at isBuilt
  rw [modesOf_eq_named isNamed, isNamed] at isBuilt
  have areReadings :
      ∀ mode ∈ namedModes name readings,
        ∀ entry ∈ mode.2,
          IsReading registry types start (extract options.kinds (textOf source))
            entry.1 entry.2 := by
    intro mode isMode entry isEntry
    obtain ⟨reading, isReading, rfl⟩ :=
      exists_reading_of_mem_namedModes isMode isEntry
    obtain ⟨declaration, isDeclaration, isRead⟩ :=
      exists_of_mem_mapM allRead isReading
    have sameDeclaration := declaration_of_read isRead
    exact ⟨declaration, isDeclaration, reading.tag,
      by rw [isRead, ← sameDeclaration]; rfl⟩
  refine ⟨types, start, areTypes, fun one isOne => ?_⟩
  rw [isOnly] at isOne
  obtain rfl := List.mem_singleton.mp isOne
  exact Collection.orderly_of_build (nodup_namedModes name readings)
    areReadings isBuilt

/-- The type that a value looks like is one of this library. -/
theorem has_of_typeOf
    {name value tag : String}
    (isType : typeOf name value = .ok tag) :
    Registry.standard.has tag = true := by
  obtain ⟨handler, looksLike, sameTag⟩ := exists_looksLike_of_typeOf isType
  exact Registry.has_standard_iff.mpr ⟨handler, looksLike.isBuiltin, sameTag⟩

theorem has_of_typesByName
    {named types : List (String × String)}
    (areTypes : typesByName named = .ok types)
    {type : String × String}
    (isType : type ∈ types) :
    Registry.standard.has type.2 = true := by
  obtain ⟨one, _, isTold⟩ := exists_of_mem_mapM areTypes isType
  obtain ⟨tag, isFollowed, isPair⟩ := bind_eq_ok_iff.mp isTold
  obtain rfl := pure_eq_ok_iff.mp isPair
  unfold followedType at isFollowed
  simp only at isFollowed
  split at isFollowed
  · cases isFollowed
    exact Registry.has_string
  · exact has_of_typeOf isFollowed

/-- The tokens that a declaration can be read as. -/
inductive Becomes
    (types : List (String × String))
    (start : String)
    (declaration : Declaration) :
    Token → Prop where
  /--
  A value that refers to a property becomes a reference to the path
  of that property.
  -/
  | reference {target : String} :
      variableOf? declaration.value = some target →
        Becomes types start declaration
          (Token.plain ((Wire.lookup? target types).getD "string")
            (.reference (Reference.ofText (TokenPath.key (pathOf start target)))))
  /-- Any other value is read as what it looks like. -/
  | value {handler : Handler} {value : TokenValue} :
      handler ∈ Handler.builtins →
        typeOf declaration.name declaration.value = .ok handler.tag →
        handler.parseCompact declaration.value = .ok (some value) →
        Becomes types start declaration (Token.plain handler.tag value)
  /-- A value that cannot be read is kept as a text. -/
  | text : Becomes types start declaration
      (Token.plain "string" (.plain (.str declaration.value)))

/-- A declaration is read as a token at the path of its name. -/
theorem becomes_of_read
    {types : List (String × String)}
    {start : String}
    {declaration : Declaration}
    {reading : Reading}
    (isRead : read Registry.standard types start declaration = .ok reading) :
    reading.path = pathOf start declaration.name ∧
      Becomes types start declaration reading.token := by
  unfold read at isRead
  simp only at isRead
  split at isRead
  · rename_i target isVariable
    obtain rfl := pure_eq_ok_iff.mp isRead
    exact ⟨rfl, .reference isVariable⟩
  · obtain ⟨tag, isType, afterTag⟩ := bind_eq_ok_iff.mp isRead
    obtain ⟨handler, isHandler, afterHandler⟩ := bind_eq_ok_iff.mp afterTag
    obtain ⟨value?, isValue, afterValue⟩ := bind_eq_ok_iff.mp afterHandler
    obtain ⟨sameTag, isBuiltin⟩ := Registry.get_standard_eq_ok isHandler
    obtain rfl := Wire.str.inj sameTag
    split at afterValue
    · obtain rfl := pure_eq_ok_iff.mp afterValue
      exact ⟨rfl,
        .value isBuiltin (lift_eq_ok_iff.mp isType) (lift_eq_ok_iff.mp isValue)⟩
    · obtain rfl := pure_eq_ok_iff.mp afterValue
      exact ⟨rfl, .text⟩

/-- A declaration is read as a token in shape. -/
theorem Becomes.shaped
    {types : List (String × String)}
    {start : String}
    {declaration : Declaration}
    {token : Token}
    (becomes : Becomes types start declaration token)
    (known : ∀ type ∈ types, Registry.standard.has type.2 = true) :
    token.Shaped := by
  cases becomes with
  | @reference target isVariable =>
      refine ⟨_, rfl, ?_, .inl rfl⟩
      cases isType : Wire.lookup? target types with
      | none => exact Registry.has_string
      | some tag => exact known _ (mem_of_lookup? isType)
  | @value handler value isBuiltin isType isValue =>
      exact ⟨handler.tag, rfl,
        Registry.has_standard_iff.mpr ⟨handler, isBuiltin, rfl⟩,
        .inr (Handler.shaped_of_parseCompact isBuiltin isValue)⟩
  | text => exact ⟨"string", rfl, Registry.has_string, .inr rfl⟩

end DesignTokens.Stylesheet
