import DesignTokens.Proofs.Source.Stylesheet.Contents
import DesignTokens.Proofs.Source.Stylesheet.Following
import DesignTokens.Proofs.Source.Stylesheet.Names
import DesignTokens.Proofs.Theme.Resolution

namespace DesignTokens.Stylesheet

/-!
# Types of references

A token that refers to a property has the type of the name of that property,
which is told from first values before anything is placed in a tree.  Resolving
goes through the trees instead, where later declarations have taken the place of
earlier ones.  Step by step, the token that is found has the type that the name
was given, unless the name misleads in one of a few ways.
-/

open DesignTokens.Text
open Relation

/-- The first reading of a name. -/
def firstReading? (readings : List Reading) (name : String) : Option Reading :=
  readings.find? (fun reading => reading.declaration.name == name)

/-- The names and values of what is read. -/
def valuesOf (readings : List Reading) : List (String × String) :=
  readings.map
    (fun reading => (reading.declaration.name, reading.declaration.value))

/-- The token found for a name need not have the type that the name was given. -/
inductive Misleads (readings : List Reading) (name : String) (found : Token) :
    Prop where
  /--
  The name is not declared; the token belongs to another name with the same path.
  -/
  | undeclared :
      firstReading? readings name = none →
        Misleads readings name found
  /--
  A declaration of another type has the same path as the first one
  and took its place.
  -/
  | replaced {first other : Reading} :
      firstReading? readings name = some first →
        other ∈ readings →
          other.path.key = first.path.key →
            other.token = found →
              found.type ≠ first.token.type →
                Misleads readings name found
  /--
  The first value of the name was kept as a text, but the name has the
  type it looks like.
  -/
  | unreadable {first : Reading} :
      firstReading? readings name = some first →
        first.isKeptAsText = true →
          Misleads readings name found
  /--
  The first value comes to a number that is a font weight under one
  of two names only.
  -/
  | inDoubt {first : Reading} {next last reached : String} :
      firstReading? readings name = some first →
        variableOf? first.declaration.value = some next →
          EndsAt (Refers (valuesOf readings)) next last →
            Wire.lookup? last (valuesOf readings) = some reached →
              WeightInDoubt name next reached →
                Misleads readings name found

/-- On a walk between two keys, a token is found that a name misleads about. -/
def MisledBetween (theme : Theme) (mode : Label) (readings : List Reading)
    (start last : String) : Prop :=
  ∃ reading ∈ readings, ∃ name reference token,
    variableOf? reading.declaration.value = some name ∧
      reading.token.value = .reference reference ∧
      ReflTransGen (theme.LeadsTo mode) start reference.path ∧
      ReflTransGen (theme.LeadsTo mode) reference.path last ∧
      theme.find? reference.path mode = some token ∧
      Misleads readings name token

theorem lookup?_valuesOf
    (readings : List Reading)
    (name : String) :
    Wire.lookup? name (valuesOf readings) =
      (firstReading? readings name).map (fun first => first.declaration.value) := by
  unfold firstReading? valuesOf
  induction readings with
  | nil => rfl
  | cons reading rest inductionHypothesis =>
      by_cases sameName : reading.declaration.name = name
      · simp [Wire.lookup?, sameName]
      · simpa [Wire.lookup?, sameName] using inductionHypothesis

/--
A value that refers to a property is read as a reference of the
type of its name.
-/
theorem type_of_read_reference
    {types : List (String × String)}
    {start target : String}
    {reading : Reading}
    (isRead : read Registry.standard types start reading.declaration = .ok reading)
    (refers : variableOf? reading.declaration.value = some target) :
    reading.token.type = .str ((Wire.lookup? target types).getD "string") := by
  unfold read at isRead
  simp only [refers] at isRead
  rw [← pure_eq_ok_iff.mp isRead]
  rfl

theorem path_of_read_reference
    {types : List (String × String)}
    {start target : String}
    {reading : Reading}
    (isRead : read Registry.standard types start reading.declaration = .ok reading)
    (refers : variableOf? reading.declaration.value = some target)
    {reference : Reference}
    (isReference : reading.token.value = .reference reference) :
    reference.path = (pathOf start target).key := by
  unfold read at isRead
  simp only [refers] at isRead
  rw [← pure_eq_ok_iff.mp isRead] at isReference
  have bare : ¬ Reference.Braced (pathOf start target).key :=
    not_braced_key (fun _ isSegment =>
      nameChars_of_mem_pathOf (nameChars_of_variableOf? refers) isSegment)
  rw [← TokenValue.reference.inj isReference, Reference.ofText,
    Reference.stripBraces_of_not_braced bare, String.ofList_toList]

theorem reference?_of_read
    {types : List (String × String)}
    {start : String}
    {reading : Reading}
    (isRead : read Registry.standard types start reading.declaration = .ok reading)
    (refersNot : variableOf? reading.declaration.value = none) :
    reading.token.value.reference? = none := by
  obtain ⟨_, becomes⟩ := becomes_of_read isRead
  generalize reading.token = token at becomes
  cases becomes with
  | reference refers => cases refersNot.symm.trans refers
  | @value handler value isBuiltin _ isValue =>
      have shaped : value.Shaped handler.tag :=
        Handler.shaped_of_parseCompact isBuiltin isValue
      cases value with
      | reference target => exact shaped.elim
      | _ => rfl
  | text => rfl

/-- Any other value is read as what it looks like, unless it is kept as a text. -/
theorem type_of_read_value
    {types : List (String × String)}
    {start tag : String}
    {reading : Reading}
    (isRead : read Registry.standard types start reading.declaration = .ok reading)
    (refersNot : variableOf? reading.declaration.value = none)
    (isType : typeOf reading.declaration.name reading.declaration.value = .ok tag)
    (isKept : reading.isKeptAsText = false) :
    reading.token.type = .str tag := by
  unfold read at isRead
  simp only [refersNot, isType, lift_ok, ok_bind] at isRead
  obtain ⟨handler, isHandler, afterHandler⟩ := bind_eq_ok_iff.mp isRead
  obtain ⟨value?, isValue, afterValue⟩ := bind_eq_ok_iff.mp afterHandler
  cases value? with
  | some value =>
      rw [← pure_eq_ok_iff.mp afterValue]
      rfl
  | none =>
      rw [← pure_eq_ok_iff.mp afterValue] at isKept ⊢
      have isText : ("string" == tag) = true := by
        simpa [Reading.isKeptAsText, Token.plain, Wire.isText] using isKept
      rw [← beq_iff_eq.mp isText]
      rfl

/--
What is found for a name that does not mislead has the type that
the name was given.
-/
theorem type_of_found
    {types : List (String × String)}
    {start : String}
    {readings : List Reading}
    (areTypes : typesByName (valuesOf readings) = .ok types)
    (areRead : ∀ reading ∈ readings,
      read Registry.standard types start reading.declaration = .ok reading)
    {name : String}
    {found : Token}
    (isHeld : ∃ other ∈ readings,
      other.path.key = (pathOf start name).key ∧ other.token = found)
    (honest : ¬ Misleads readings name found) :
    found.type = .str ((Wire.lookup? name types).getD "string") := by
  cases isFirst : firstReading? readings name with
  | none => exact (honest (.undeclared isFirst)).elim
  | some first =>
      have isRead := areRead first (List.mem_of_find?_eq_some isFirst)
      have sameName : first.declaration.name = name := by
        simpa using List.find?_some isFirst
      have samePath : first.path = pathOf start name := by
        rw [(becomes_of_read isRead).1, sameName]
      have sameType : found.type = first.token.type := by
        obtain ⟨other, isOther, isThere, isToken⟩ := isHeld
        rw [← samePath] at isThere
        by_contra differs
        exact honest (.replaced isFirst isOther isThere isToken differs)
      have isKept : first.isKeptAsText = false := by
        by_contra isText
        exact honest (.unreadable isFirst (eq_true_of_ne_false isText))
      have isValue :
          Wire.lookup? name (valuesOf readings) = some first.declaration.value := by
        rw [lookup?_valuesOf, isFirst]
        rfl
      rw [sameType]
      cases refers : variableOf? first.declaration.value with
      | none =>
          obtain ⟨tag, isType, isNamed⟩ := type_of_value areTypes isValue refers
          rw [← sameName] at isType
          rw [isNamed]
          exact type_of_read_value isRead refers isType isKept
      | some next =>
          rw [type_of_read_reference isRead refers]
          rcases type_of_reference areTypes isValue refers with
            isNamed | ⟨last, reached, ends, isReached, inDoubt⟩
          · rw [isNamed]
            rfl
          · exact (honest (.inDoubt isFirst refers ends isReached inDoubt)).elim

/--
What is found for a reference has its type, unless the name it
refers to misleads.
-/
theorem type_of_next
    {types : List (String × String)}
    {start : String}
    {readings : List Reading}
    (areTypes : typesByName (valuesOf readings) = .ok types)
    (areRead : ∀ reading ∈ readings,
      read Registry.standard types start reading.declaration = .ok reading)
    {reading : Reading}
    (isReading : reading ∈ readings)
    {reference : Reference}
    (isReference : reading.token.value = .reference reference)
    {found : Token}
    (isHeld : ∃ other ∈ readings,
      other.path.key = reference.path ∧ other.token = found) :
    reading.token.type = found.type ∨
      ∃ name,
        variableOf? reading.declaration.value = some name ∧
          Misleads readings name found := by
  have isRead := areRead reading isReading
  cases refers : variableOf? reading.declaration.value with
  | none =>
      have noReference := reference?_of_read isRead refers
      rw [isReference] at noReference
      cases noReference
  | some name =>
      by_cases misleads : Misleads readings name found
      · exact .inr ⟨name, rfl, misleads⟩
      · left
        rw [path_of_read_reference isRead refers isReference] at isHeld
        rw [type_of_read_reference isRead refers,
          type_of_found areTypes areRead isHeld misleads]

theorem exists_reading_of_find?
    {theme : Theme}
    {readings : List Reading}
    (areReadings :
      ∀ located ∈ theme.walk, ∃ reading ∈ readings, reading.path = located.path ∧
        reading.token = located.token)
    {key : String}
    {mode : Label}
    {found : Token}
    (isFound : theme.find? key mode = some found) :
    ∃ reading ∈ readings, reading.path.key = key ∧ reading.token = found := by
  obtain ⟨located, isLocated, isPath, rfl⟩ := Theme.exists_located_of_find? isFound
  obtain ⟨reading, isReading, samePath, sameToken⟩ := areReadings located isLocated
  refine ⟨reading, isReading, ?_, sameToken⟩
  rw [samePath, isPath, key_splitText]

theorem MisledBetween.head
    {theme : Theme}
    {mode : Label}
    {readings : List Reading}
    {key next last : String}
    (hop : theme.LeadsTo mode key next)
    (misled : MisledBetween theme mode readings next last) :
    MisledBetween theme mode readings key last := by
  obtain ⟨reading, isReading, name, reference, token, refers, isReference, before,
      behind, isThere, misleads⟩ := misled
  exact ⟨reading, isReading, name, reference, token, refers, isReference,
    before.head hop, behind, isThere, misleads⟩

/--
From a reference on, every token that is found has its type, unless
a name misleads.
-/
theorem type_of_reached
    {types : List (String × String)}
    {start : String}
    {readings : List Reading}
    (areTypes : typesByName (valuesOf readings) = .ok types)
    (areRead : ∀ reading ∈ readings,
      read Registry.standard types start reading.declaration = .ok reading)
    {theme : Theme}
    (areReadings : ∀ located ∈ theme.walk,
      ∃ reading ∈ readings, reading.path = located.path ∧
        reading.token = located.token)
    {mode : Label}
    {key last : String}
    (reached : ReflTransGen (theme.LeadsTo mode) key last)
    {found : Token}
    (isFound : theme.find? last mode = some found)
    {reading : Reading}
    (isReading : reading ∈ readings)
    {reference : Reference}
    (isReference : reading.token.value = .reference reference)
    (isKey : reference.path = key) :
    reading.token.type = found.type ∨
      MisledBetween theme mode readings key last := by
  induction reached using
    ReflTransGen.head_induction_on generalizing reading reference with
  | refl =>
      subst isKey
      have isHeld := exists_reading_of_find? areReadings isFound
      rcases type_of_next areTypes areRead isReading isReference isHeld with
        sameType | ⟨name, refers, misleads⟩
      · exact .inl sameType
      · exact .inr ⟨reading, isReading, name, reference, found, refers, isReference,
          .refl, .refl, isFound, misleads⟩
  | head hop onward inductionHypothesis =>
      have wholeWay := onward.head hop
      obtain ⟨token, next, isThere, isNext, nextKey⟩ := id hop
      subst isKey
      have isHeld := exists_reading_of_find? areReadings isThere
      rcases type_of_next areTypes areRead isReading isReference isHeld with
        sameType | ⟨name, refers, misleads⟩
      · -- The token that is found is itself how some declaration is read.
        obtain ⟨other, isOther, _, sameToken⟩ := isHeld
        rw [← sameToken] at isNext sameType
        rcases inductionHypothesis isOther isNext nextKey with reachedType | misled
        · exact .inl (sameType.trans reachedType)
        · exact .inr (misled.head hop)
      · exact .inr ⟨reading, isReading, name, reference, token, refers, isReference,
          .refl, wholeWay, isThere, misleads⟩

theorem exists_options_of_parse
    {registry : Registry}
    {source given : Wire}
    {theme : Theme}
    (isParsed : parse registry source given = .ok theme) :
    ∃ options, Options.decode (optionsOf source given) = .ok options := by
  unfold parse at isParsed
  obtain ⟨_, _, afterAccept⟩ := bind_eq_ok_iff.mp isParsed
  obtain ⟨options, areOptions, _⟩ := bind_eq_ok_iff.mp afterAccept
  exact ⟨options, lift_eq_ok_iff.mp areOptions⟩

/-- Every token of a parsed style sheet is how one of its declarations is read. -/
theorem exists_reading_of_mem_walk
    {options : Options}
    {readings : List Reading}
    {collection : Collection}
    (isBuilt : collectionOf options readings = .ok collection)
    {theme : Theme}
    (isOnly : theme.collections = [collection])
    {located : Located}
    (isLocated : located ∈ theme.walk) :
    ∃ reading ∈ readings, reading.path = located.path ∧
      reading.token = located.token := by
  obtain ⟨isCollection, tree, isTree, isEntry⟩ := Theme.mem_walk_iff.mp isLocated
  rw [isOnly] at isCollection
  rw [List.mem_singleton.mp isCollection] at isTree
  obtain ⟨mode, isMode, wasListed⟩ :=
    Collection.exists_mode_of_build isBuilt isTree isEntry
  obtain ⟨dark, isScheme⟩ := exists_scheme_of_mem_modesOf isMode
  rw [isScheme] at wasListed
  obtain ⟨reading, isKept, isPair⟩ := List.mem_map.mp wasListed
  exact ⟨reading, (List.mem_filter.mp isKept).1, Prod.mk.inj isPair⟩

/--
When a token of a parsed style sheet is a reference and resolving it in some mode
comes to a value, the token with that value has the type of the reference, unless
a name on the way there misleads.
-/
theorem reference_typed_as_resolved
    {source given : Wire}
    {theme : Theme}
    (isParsed : parse Registry.standard source given = .ok theme) :
    ∃ options readings,
      Options.decode (optionsOf source given) = .ok options ∧
        readAll Registry.standard options (extract options.kinds (textOf source)) =
          .ok readings ∧
        ∀ (mode : Label) (located : Located) (reference : Reference)
          (value : TokenValue),
          located ∈ theme.walk →
            located.token.value = .reference reference →
              theme.resolve located.token mode = .ok (some value) →
                ∃ last found,
                  EndsAt (theme.LeadsTo mode) reference.path last ∧
                    theme.find? last mode = some found ∧
                    found.value = value ∧
                    (located.token.type = found.type ∨
                      MisledBetween theme mode readings reference.path last) := by
  obtain ⟨options, areOptions⟩ := exists_options_of_parse isParsed
  obtain ⟨readings, collection, allRead, isBuilt, isOnly⟩ :=
    exists_readings_of_parse areOptions isParsed
  obtain ⟨types, start, areTypes, eachRead⟩ := exists_types_of_readAll allRead
  have sameValues :
      (extract options.kinds (textOf source)).map
        (fun one => (one.name, one.value)) = valuesOf readings := by
    rw [← declarations_of_readAll allRead, List.map_map]
    rfl
  rw [sameValues] at areTypes
  have areRead (reading : Reading) (isReading : reading ∈ readings) :
      read Registry.standard types start reading.declaration = .ok reading := by
    obtain ⟨declaration, _, isRead⟩ := exists_of_mem_mapM eachRead isReading
    rw [declaration_of_read isRead]
    exact isRead
  have areReadings (located : Located) (isLocated : located ∈ theme.walk) :
      ∃ reading ∈ readings, reading.path = located.path ∧
        reading.token = located.token :=
    exists_reading_of_mem_walk isBuilt isOnly isLocated
  refine ⟨options, readings, areOptions, allRead, ?_⟩
  intro mode located reference value isLocated isReference isResolved
  obtain ⟨last, ends, isValue⟩ :=
    (Theme.resolve_eq_ok_iff isReference).mp isResolved
  obtain ⟨found, isFound, sameValue⟩ := Option.map_eq_some_iff.mp isValue.symm
  obtain ⟨reading, isReading, _, sameToken⟩ := areReadings located isLocated
  rw [← sameToken] at isReference ⊢
  exact ⟨last, found, ends, isFound, sameValue,
    type_of_reached areTypes areRead areReadings ends.1 isFound isReading
      isReference rfl⟩

/-- A length that two properties come to, and another one for the dark scheme. -/
def chainedSheet : Wire :=
  .str (":root \x7b --a: 4px; --b: var(--a); --c: var(--b); \x7d" ++
    ".dark \x7b --a: 8px; \x7d")

/--
Whether all readings are of one type and none is kept as a text or is a number,
and all names that their values refer to are declared.
-/
def isUniform (tag : String) (readings : List Reading) : Bool :=
  readings.all fun reading =>
    reading.token.type.isText tag && !reading.isKeptAsText &&
      !isNumberText (trim reading.declaration.value) &&
        (variableOf? reading.declaration.value).all fun name =>
          (firstReading? readings name).isSome

/-- Among readings of one type no name misleads. -/
theorem not_misledBetween_of_isUniform
    {readings : List Reading}
    {tag : String}
    (uniform : isUniform tag readings = true)
    (theme : Theme)
    (mode : Label)
    (start last : String) :
    ¬ MisledBetween theme mode readings start last := by
  have each (reading : Reading) (isReading : reading ∈ readings) :=
    List.all_eq_true.mp uniform reading isReading
  simp only [Bool.and_eq_true, Bool.not_eq_true'] at each
  have sameType (reading : Reading) (isReading : reading ∈ readings) :
      reading.token.type = .str tag := by
    have isTag := (each reading isReading).1.1.1
    unfold Wire.isText at isTag
    split at isTag
    · rename_i name isName
      rw [isName, beq_iff_eq.mp isTag]
    · cases isTag
  rintro ⟨reading, isReading, name, reference, token, refers, _, _, _, _, misleads⟩
  cases misleads with
  | undeclared isNone =>
      have isDeclared := (each reading isReading).2
      rw [refers, Option.all_some, isNone] at isDeclared
      cases isDeclared
  | replaced isFirst isOther _ isToken differs =>
      rw [← isToken, sameType _ isOther,
        sameType _ (List.mem_of_find?_eq_some isFirst)] at differs
      exact differs rfl
  | unreadable isFirst isKept =>
      have notKept := (each _ (List.mem_of_find?_eq_some isFirst)).1.1.2
      cases notKept.symm.trans isKept
  | inDoubt _ _ _ isReached inDoubt =>
      rw [lookup?_valuesOf] at isReached
      obtain ⟨held, isHeld, rfl⟩ := Option.map_eq_some_iff.mp isReached
      have noNumber := (each held (List.mem_of_find?_eq_some isHeld)).1.2
      cases noNumber.symm.trans inDoubt.isNumber

/--
In the dark mode too, the reference that comes to a length over another
one has its type.
-/
theorem reference_typed_chained :
    ∃ theme located reference value,
      parse Registry.standard chainedSheet .null = .ok theme ∧
        located ∈ theme.walk ∧
        located.path = ["c"] ∧
        located.token.value = .reference reference ∧
        theme.resolve located.token (.str "dark") = .ok (some value) ∧
        ∃ last found,
          EndsAt (theme.LeadsTo (.str "dark")) reference.path last ∧
            theme.find? last (.str "dark") = some found ∧
            found.value = value ∧
            located.token.type = found.type := by
  have shown :
      ((parse Registry.standard chainedSheet .null).toOption.bind fun theme =>
          (theme.walk.find? (fun located => located.path == ["c"])).bind
            fun located =>
              located.token.value.reference?.bind fun _ =>
                (theme.resolve located.token (.str "dark")).toOption.map
                  Option.isSome) =
        some true := by
    decide +kernel
  have uniform :
      (readAll Registry.standard Options.plain
          (extract Options.plain.kinds (textOf chainedSheet))).toOption.any
        (isUniform "dimension") = true := by
    decide +kernel
  obtain ⟨theme, isThere, shown⟩ := Option.bind_eq_some_iff.mp shown
  obtain ⟨located, isFirst, shown⟩ := Option.bind_eq_some_iff.mp shown
  obtain ⟨reference, refers, shown⟩ := Option.bind_eq_some_iff.mp shown
  obtain ⟨value?, resolved, isSome⟩ := Option.map_eq_some_iff.mp shown
  obtain ⟨value, rfl⟩ := Option.isSome_iff_exists.mp isSome
  have isParsed := eq_ok_of_toOption isThere
  have isResolved := eq_ok_of_toOption resolved
  have isReference := TokenValue.reference?_eq_some.mp refers
  have isLocated := List.mem_of_find?_eq_some isFirst
  have isPath : located.path = ["c"] := by
    simpa using List.find?_some isFirst
  obtain ⟨options, readings, areOptions, areRead, typed⟩ :=
    reference_typed_as_resolved isParsed
  obtain rfl : Options.plain = options :=
    Except.ok.inj (decode_null.symm.trans areOptions)
  rw [areRead] at uniform
  obtain ⟨last, found, ends, isFound, sameValue, sameType | misled⟩ :=
    typed (.str "dark") located reference value isLocated isReference isResolved
  · exact ⟨theme, located, reference, value, isParsed, isLocated, isPath,
      isReference, isResolved, last, found, ends, isFound, sameValue, sameType⟩
  · exact (not_misledBetween_of_isUniform uniform _ _ _ _ misled).elim

/--
The keys of all tokens with their types, and with the keys that
references lead to.
-/
def typesShown (theme : Theme) : List (String × String × Option String) :=
  theme.walk.map fun located =>
    (located.path.key,
      match located.token.type with
      | .str tag => tag
      | _ => "",
      located.token.value.reference?.map Reference.path)

/--
References are not typed like the tokens they lead to when a property is declared
again, when a number is a font weight under one of its names only, when a color
cannot be read, and when a property is not declared but another one has its path.
-/
theorem references_typed_otherwise :
    (parse Registry.standard
      (.str ":root \x7b --a: 4px; --a: #fff; --b: var(--a); \x7d")
        .null).toOption.map typesShown =
      some [("a", "color", none), ("b", "dimension", some "a")] ∧
    (parse Registry.standard
        (.str
          ":root \x7b --font: 700; --head: var(--font); --title: var(--head); \x7d")
        .null).toOption.map typesShown =
      some [("font", "fontWeight", none), ("head", "fontWeight", some "font"),
        ("title", "number", some "head")] ∧
    (parse Registry.standard
      (.str ":root \x7b --icon: currentColor; --x: var(--icon); \x7d")
        .null).toOption.map typesShown =
      some [("icon", "string", none), ("x", "color", some "icon")] ∧
    (parse Registry.standard (.str ":root \x7b --a-b: 4px; --x: var(--a--b); \x7d")
        .null).toOption.map typesShown =
      some [("a.b", "dimension", none), ("x", "string", some "a.b")] := by
  refine ⟨?_, ?_, ?_, ?_⟩
  · decide +kernel
  · decide +kernel
  · decide +kernel
  · decide +kernel

end DesignTokens.Stylesheet
