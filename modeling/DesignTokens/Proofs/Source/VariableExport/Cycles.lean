import DesignTokens.Proofs.Source.VariableExport.Contents
import DesignTokens.Proofs.Theme.ReferenceCycles

namespace DesignTokens.VariableExport

/-!
# Aliases and reference cycles

An alias names a variable by its identity, a reference names a token by its
path.  Where the path of a reference is that of another variable than the alias
stands for, the reference leads astray; aliases that lead nowhere in circles can
only become references that do when some reference on the circle leads astray.
-/

open Relation

/-- A value of a variable is an alias that stands for another one. -/
def Aliases (known : List Variable) (subject target : Variable) : Prop :=
  subject ∈ known ∧
    ∃ value, subject.Holds value ∧ isAlias value = true ∧
      byIdentity? known (aliasTarget value) = some target

/--
A value of a variable is an alias whose reference leads to the path of a
variable for which the alias does not stand.
-/
def LeadsAstray (known : List Variable) (subject other : Variable) : Prop :=
  subject ∈ known ∧ other ∈ known ∧
    ∃ value, subject.Holds value ∧ isAlias value = true ∧
      reference known value = .ok ⟨TokenPath.key other.path⟩ ∧
      byIdentity? known (aliasTarget value) ≠ some other

/--
Following a reference in a parsed theme is following an alias of a
variable at that path.
-/
theorem exists_alias_of_leadsTo
    {theme : Theme}
    {known : List Variable}
    (orderly : ∀ collection ∈ theme.collections,
      collection.Orderly (IsReading Registry.standard known))
    {mode : Label}
    {source target : String}
    (leads : theme.LeadsTo mode source target) :
    ∃ subject ∈ known, TokenPath.key subject.path = source ∧
      ∃ value, subject.Holds value ∧ isAlias value = true ∧
        reference known value = .ok ⟨target⟩ := by
  obtain ⟨token, found, isFound, isReference, rfl⟩ := leads
  obtain ⟨located, isLocated, isPath, rfl⟩ := Theme.exists_located_of_find? isFound
  obtain ⟨subject, isKnown, samePath, value, isHeld, isRead⟩ :=
    Theme.fits_of_mem_walk orderly isLocated
  obtain ⟨valueIsAlias, isTarget⟩ :=
    (shape_of_readValue isRead).2 found
      (TokenValue.reference?_eq_some.mpr isReference)
  refine ⟨subject, isKnown, ?_, value, isHeld, valueIsAlias, isTarget⟩
  rw [samePath, isPath, key_splitText]

/--
A reference that does not lead astray leads to the variable for which
the alias stands.
-/
theorem exists_aliases_of_leadsTo
    {theme : Theme}
    {known : List Variable}
    (orderly : ∀ collection ∈ theme.collections,
      collection.Orderly (IsReading Registry.standard known))
    {mode : Label}
    {source target : String}
    (leads : theme.LeadsTo mode source target)
    (straight : ∀ subject other, LeadsAstray known subject other →
      TokenPath.key subject.path = source → TokenPath.key other.path ≠ target) :
    ∃ subject ∈ known, TokenPath.key subject.path = source ∧
      ∀ other ∈ known, TokenPath.key other.path = target →
        Aliases known subject other := by
  obtain ⟨subject, isKnown, isSource, value, isHeld, valueIsAlias, isTarget⟩ :=
    exists_alias_of_leadsTo orderly leads
  refine ⟨subject, isKnown, isSource, fun other isOther isAtTarget => ?_⟩
  refine ⟨isKnown, value, isHeld, valueIsAlias,
    Classical.byContradiction fun isAnother => ?_⟩
  exact straight subject other
    ⟨isKnown, isOther, value, isHeld, valueIsAlias, isAtTarget ▸ isTarget,
      isAnother⟩
    isSource isAtTarget

/--
Along a cycle on which no reference leads astray, walking from one path to
another is following aliases from a variable at the first path to every variable
at the second.
-/
theorem exists_aliases_of_transGen
    {theme : Theme}
    {known : List Variable}
    (orderly : ∀ collection ∈ theme.collections,
      collection.Orderly (IsReading Registry.standard known))
    {mode : Label}
    {cycle : List String}
    (isCycle : IsCycle (theme.LeadsTo mode) cycle)
    (straight : ∀ subject other, LeadsAstray known subject other →
      TokenPath.key subject.path ∈ cycle → TokenPath.key other.path ∉ cycle)
    {source target : String}
    (isMember : source ∈ cycle)
    (reached : TransGen (theme.LeadsTo mode) source target) :
    ∃ subject ∈ known, TokenPath.key subject.path = source ∧
      ∀ other ∈ known, TokenPath.key other.path = target →
        TransGen (Aliases known) subject other := by
  have staysOn {first last : String} (isFirst : first ∈ cycle)
      (leads : ReflTransGen (theme.LeadsTo mode) first last) : last ∈ cycle :=
    isCycle.mem_of_reaches (Theme.LeadsTo.unique theme mode) isFirst leads
  have hop {first last : String} (isFirst : first ∈ cycle)
      (leads : theme.LeadsTo mode first last) :=
    exists_aliases_of_leadsTo orderly leads
      fun subject other astray isSource isTarget =>
      straight subject other astray (isSource ▸ isFirst)
        (isTarget ▸ staysOn isFirst (.single leads))
  induction reached with
  | single leads =>
      obtain ⟨subject, isKnown, isSource, aliases⟩ := hop isMember leads
      exact ⟨subject, isKnown, isSource, fun other isOther isTarget =>
        .single (aliases other isOther isTarget)⟩
  | tail before leads inductionHypothesis =>
      obtain ⟨subject, isKnown, isSource, reaches⟩ := inductionHypothesis
      obtain ⟨middle, isMiddleKnown, isMiddle, aliases⟩ :=
        hop (staysOn isMember before.to_reflTransGen) leads
      exact ⟨subject, isKnown, isSource, fun other isOther isTarget =>
        (reaches middle isMiddleKnown isMiddle).tail
          (aliases other isOther isTarget)⟩

/--
Where no chain of aliases leads back to a variable, every reported cycle passes
two paths between which a reference leads astray; so where no reference does,
no cycle is reported.
-/
theorem referenceCycles_lead_astray
    {source given : Wire}
    {theme : Theme}
    (isParsed : parse Registry.standard source given = .ok theme)
    {known : List Variable}
    (areKnown : variablesOf source = .ok known)
    (acyclic : ∀ subject, ¬ TransGen (Aliases known) subject subject) :
    (∀ cycle ∈ theme.referenceCycles,
      ∃ subject other, LeadsAstray known subject other ∧
        TokenPath.key subject.path ∈ cycle ∧ TokenPath.key other.path ∈ cycle) ∧
    ((∀ subject other, ¬ LeadsAstray known subject other) →
      theme.referenceCycles = []) := by
  obtain ⟨found, areFound, orderly⟩ := exists_orderly_of_parse isParsed
  obtain rfl : known = found := Except.ok.inj (areKnown.symm.trans areFound)
  have passesAstray : ∀ cycle ∈ theme.referenceCycles,
      ∃ subject other, LeadsAstray known subject other ∧
        TokenPath.key subject.path ∈ cycle ∧ TokenPath.key other.path ∈ cycle := by
    intro cycle isReported
    have isFound : cycle ∈ theme.modeCycles :=
      ((Theme.distinct_distinctCycles theme.modeCycles).isGiven cycle
        isReported).resolve_left List.not_mem_nil
    obtain ⟨mode, _, isCycle⟩ := Theme.isCycle_of_mem_modeCycles isFound
    by_contra noneAstray
    have straight : ∀ subject other, LeadsAstray known subject other →
        TokenPath.key subject.path ∈ cycle → TokenPath.key other.path ∉ cycle :=
      fun subject other astray isSource isTarget =>
        noneAstray ⟨subject, other, astray, isSource, isTarget⟩
    obtain ⟨start, isMember⟩ := List.exists_mem_of_ne_nil cycle isCycle.nonempty
    obtain ⟨next, isNext, leads⟩ := isCycle.exists_hop isMember
    have around : TransGen (theme.LeadsTo mode) start start :=
      .head' leads (isCycle.reaches isNext isMember)
    obtain ⟨subject, isKnown, isStart, reaches⟩ :=
      exists_aliases_of_transGen orderly isCycle straight isMember around
    exact acyclic subject (reaches subject isKnown isStart)
  refine ⟨passesAstray, fun noneAstray => ?_⟩
  refine List.eq_nil_iff_forall_not_mem.mpr fun cycle isReported => ?_
  obtain ⟨subject, other, astray, _⟩ := passesAstray cycle isReported
  exact noneAstray subject other astray

/-- A variable of texts in a collection, with its value in the one mode. -/
def listedVariable (name collection : String) (value : Wire) : Wire :=
  .obj
    [ ("name", .str name), ("resolvedType", .str "STRING"),
      ("variableCollectionId", .str collection),
      ("valuesByMode", .obj [("m", value)]) ]

/-- A collection with one mode. -/
def listedCollection (name : String) : Wire :=
  .obj
    [("name", .str name),
      ("modes", .list [.obj [("modeId", .str "m"), ("name", .str "Mode")]])]

/-- An alias of the variable with the identity 2. -/
def secondAlias : Wire :=
  .obj [("type", .str "VARIABLE_ALIAS"), ("id", .str "2")]

/-- A variable that is an alias of another one in a collection of its own. -/
def linked (first second : String) : Wire :=
  .obj
    [ ( "variables",
        .obj
          [ ("1", listedVariable first "semantic" secondAlias),
            ("2", listedVariable second "base" (.str "black")) ] ),
      ( "variableCollections",
        .obj [("semantic", listedCollection "Semantic"),
          ("base", listedCollection "Base")] ) ]

/-- The variables of the linked export. -/
def linkedVariables (first second : String) : List Variable :=
  [ ⟨.str "1", first, (listedVariable first "semantic" secondAlias).members⟩,
    ⟨.str "2", second, (listedVariable second "base" (.str "black")).members⟩ ]

theorem variablesOf_linked
    (first second : String) :
    variablesOf (linked first second) = .ok (linkedVariables first second) :=
  rfl

/-- The first of the linked variables holds an alias, the second one none. -/
theorem eq_of_holds_alias
    {first second : String}
    {subject : Variable}
    (isKnown : subject ∈ linkedVariables first second)
    {value : Wire}
    (isHeld : subject.Holds value)
    (valueIsAlias : isAlias value = true) :
    subject.id = .str "1" ∧ value = secondAlias := by
  obtain ⟨values, mode, areValues, isValue⟩ := isHeld
  rcases List.mem_pair.mp isKnown with rfl | rfl
  · obtain rfl : [("m", secondAlias)] = values := Wire.obj.inj areValues
    cases List.mem_singleton.mp isValue
    exact ⟨rfl, rfl⟩
  · obtain rfl : [("m", Wire.str "black")] = values := Wire.obj.inj areValues
    cases List.mem_singleton.mp isValue
    cases valueIsAlias

/--
Aliases lead from the first of the linked variables to the second
one, and no further.
-/
theorem ids_of_transGen_linked
    {first second : String}
    {subject target : Variable}
    (reached : TransGen (Aliases (linkedVariables first second)) subject target) :
    subject.id = .str "1" ∧ target.id = .str "2" := by
  have hop {subject target : Variable}
      (aliases : Aliases (linkedVariables first second) subject target) :
          subject.id = .str "1" ∧ target.id = .str "2" := by
    obtain ⟨isKnown, value, isHeld, valueIsAlias, isTarget⟩ := aliases
    obtain ⟨isFirst, rfl⟩ := eq_of_holds_alias isKnown isHeld valueIsAlias
    obtain rfl := Option.some.inj isTarget
    exact ⟨isFirst, rfl⟩
  induction reached with
  | single aliases => exact hop aliases
  | tail _ aliases inductionHypothesis =>
      exact ⟨inductionHypothesis.1, (hop aliases).2⟩

/-- No chain of aliases leads back to one of the linked variables. -/
theorem acyclic_linked
    (first second : String)
    (subject : Variable) :
    ¬ TransGen (Aliases (linkedVariables first second)) subject subject := by
  intro around
  obtain ⟨isFirst, isSecond⟩ := ids_of_transGen_linked around
  have same := Wire.str.inj (isFirst.symm.trans isSecond)
  exact absurd same (by decide)

/--
Under names that lead to different paths, the alias becomes a
reference, and no cycle.
-/
theorem referenceCycles_linked_ink :
    ∃ theme,
      parse Registry.standard (linked "link" "ink") .null = .ok theme ∧
        theme.walk.filterMap (fun located => located.token.value.reference?) =
          [⟨"ink"⟩] ∧
        variablesOf (linked "link" "ink") = .ok (linkedVariables "link" "ink") ∧
        (∀ subject,
          ¬ TransGen (Aliases (linkedVariables "link" "ink")) subject subject) ∧
        (∀ subject other,
          ¬ LeadsAstray (linkedVariables "link" "ink") subject other) ∧
        theme.referenceCycles = [] := by
  have shown :
      (parse Registry.standard (linked "link" "ink") .null).toOption.map
        (fun theme =>
          theme.walk.filterMap (fun located => located.token.value.reference?)) =
        some [⟨"ink"⟩] := by
    rw [Registry.standard_eq]
    decide +kernel
  obtain ⟨theme, isThere, references⟩ := Option.map_eq_some_iff.mp shown
  have isParsed := eq_ok_of_toOption isThere
  have areKnown := variablesOf_linked "link" "ink"
  have acyclic := acyclic_linked "link" "ink"
  have straight :
      ∀ subject other,
        ¬ LeadsAstray (linkedVariables "link" "ink") subject other := by
    rintro subject other ⟨isKnown, isOther, value, isHeld, valueIsAlias, isTarget,
      isAnother⟩
    obtain ⟨_, rfl⟩ := eq_of_holds_alias isKnown isHeld valueIsAlias
    rcases List.mem_pair.mp isOther with rfl | rfl
    · exact absurd (Except.ok.inj isTarget) (by decide +kernel)
    · exact isAnother rfl
  exact ⟨theme, isParsed, references, areKnown, acyclic, straight,
    (referenceCycles_lead_astray isParsed areKnown acyclic).2 straight⟩

/--
Under names that lead to one path, the alias becomes a reference of a
token to itself.
-/
theorem referenceCycles_linked_color :
    ∃ theme,
      parse Registry.standard (linked "color" "Color") .null = .ok theme ∧
        variablesOf (linked "color" "Color") =
          .ok (linkedVariables "color" "Color") ∧
        (∀ subject,
          ¬ TransGen (Aliases (linkedVariables "color" "Color")) subject subject) ∧
        theme.referenceCycles = [["color"]] := by
  have shown :
      (parse Registry.standard (linked "color" "Color") .null).toOption.map
          Theme.referenceCycles =
        some [["color"]] := by
    rw [Registry.standard_eq]
    decide +kernel
  obtain ⟨theme, isThere, cycles⟩ := Option.map_eq_some_iff.mp shown
  exact ⟨theme, eq_ok_of_toOption isThere, variablesOf_linked "color" "Color",
    acyclic_linked "color" "Color", cycles⟩

end DesignTokens.VariableExport
