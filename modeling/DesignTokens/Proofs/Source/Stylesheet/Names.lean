import DesignTokens.Proofs.Source.Stylesheet.Scan
import DesignTokens.Proofs.Text.Search
import DesignTokens.Source.Stylesheet.Naming
import DesignTokens.Proofs.Value.Documents
import DesignTokens.Theme.Codec

namespace DesignTokens

/-!
# Names in style sheets

A scan takes only word characters and hyphens into the name of a property, and
so does a reference to a property.  Cutting a name into segments adds nothing to
it, so the segments neither look like names of other tools nor stand in braces.
-/

namespace Text

/-- A text of word characters and hyphens. -/
def NameChars (chars : List Char) : Prop :=
  ∀ c ∈ chars, isNameChar c = true

theorem NameChars.of_suffix
    {part whole : List Char}
    (nameChars : NameChars whole)
    (isSuffix : part <:+ whole) :
    NameChars part :=
  fun c isChar => nameChars c (isSuffix.mem isChar)

theorem nameChars_takeWhile (chars : List Char) :
    NameChars (chars.takeWhile isNameChar) :=
  fun _ isTaken => List.mem_takeWhile_imp isTaken

/-- What is joined holds the separator and the characters of the pieces. -/
theorem eq_or_mem_of_mem_intercalate
    {separator : Char}
    {pieces : List (List Char)}
    {c : Char}
    (isChar : c ∈ [separator].intercalate pieces) :
    c = separator ∨ ∃ piece ∈ pieces, c ∈ piece := by
  induction pieces with
  | nil => simp at isChar
  | cons first rest inductionHypothesis =>
      cases rest with
      | nil => exact .inr ⟨first, by simp, by simpa using isChar⟩
      | cons second others =>
          rw [List.intercalate_cons_cons] at isChar
          simp only [List.mem_append, List.mem_singleton] at isChar
          rcases isChar with (inFirst | isSeparator) | inRest
          · exact .inr ⟨first, by simp, inFirst⟩
          · exact .inl isSeparator
          · rcases inductionHypothesis inRest with
              isSeparator | ⟨piece, isPiece, inPiece⟩
            · exact .inl isSeparator
            · exact .inr ⟨piece, List.mem_cons_of_mem _ isPiece, inPiece⟩

/-- A name is not reserved for other tools. -/
theorem NameChars.not_reserved
    {name : String}
    (nameChars : NameChars name.toList) :
    Node.isReserved name = false := by
  unfold Node.isReserved startsWith
  cases chars : name.toList with
  | nil => rfl
  | cons first rest =>
      have isName : isNameChar first = true := nameChars first (by simp [chars])
      have notReserved : '$' ≠ first := by
        rintro rfl
        exact absurd isName (by decide)
      simp [List.isPrefixOf, notReserved]

/-- The dotted form of a path of names does not begin with a brace. -/
theorem not_braced_key
    {path : TokenPath}
    (nameChars : ∀ segment ∈ path, NameChars segment.toList) :
    ¬ Reference.Braced path.key := by
  rintro ⟨opens, _⟩
  have isChar := List.mem_of_mem_head? opens
  rw [TokenPath.key, joinWith, String.toList_intercalate] at isChar
  rcases eq_or_mem_of_mem_intercalate isChar with isDot | ⟨piece, isPiece, inPiece⟩
  · exact absurd isDot (by decide)
  · obtain ⟨segment, isSegment, rfl⟩ := List.mem_map.mp isPiece
    exact absurd (nameChars segment isSegment _ inPiece) (by decide)

end Text

namespace Stylesheet

open Text

theorem suffix_dropStart (start : String) (name : List Char) :
    dropStart start name <:+ name := by
  unfold dropStart
  split
  · exact List.suffix_refl _
  · cases isAfter : after? (dropHyphens start.toList) name with
    | none => exact List.suffix_refl _
    | some rest => exact suffix_of_after? isAfter

theorem suffix_of_afterCompound?
    {compound : String}
    {name rest : List Char}
    (isAfter : afterCompound? compound name = some rest) :
    rest <:+ name := by
  unfold afterCompound? at isAfter
  split at isAfter
  · exact Option.some.inj isAfter ▸ List.nil_suffix
  · rename_i follows
    obtain rfl := Option.some.inj isAfter
    exact (List.suffix_cons _ _).trans (suffix_of_after? follows)
  · cases isAfter

theorem nameChars_of_mem_pieces
    {name : List Char}
    (nameChars : NameChars name)
    {segment : String}
    (isPiece : segment ∈ pieces name) :
    NameChars segment.toList := by
  obtain ⟨piece, isKept, rfl⟩ := List.mem_map.mp isPiece
  rw [String.toList_ofList]
  exact fun c isChar =>
    nameChars c (mem_of_mem_splitOn (List.mem_filter.mp isKept).1 isChar)

theorem nameChars_of_mem_compounds
    {compound : String × String}
    (isCompound : compound ∈ compounds) :
    NameChars compound.2.toList := by
  have allNameChars :
      compounds.all (fun compound => compound.2.toList.all isNameChar) = true := by
    decide
  exact List.all_eq_true.mp (List.all_eq_true.mp allNameChars compound isCompound)

/-- The segments of the path of a name are names. -/
theorem nameChars_of_mem_pathOf
    {start name : String}
    (nameChars : NameChars name.toList)
    {segment : String}
    (isSegment : segment ∈ pathOf start name) :
    NameChars segment.toList := by
  have restChars : NameChars (dropStart start (dropHyphens name.toList)) :=
    nameChars.of_suffix ((suffix_dropStart _ _).trans (List.dropWhile_suffix _))
  unfold pathOf at isSegment
  simp only at isSegment
  split at isSegment
  · rename_i compound more isFound
    obtain ⟨known, isKnown, isPair⟩ := List.exists_of_findSome?_eq_some isFound
    obtain ⟨rest, isAfter, isMore⟩ := Option.map_eq_some_iff.mp isPair
    cases isMore
    rcases List.mem_cons.mp isSegment with rfl | inMore
    · exact nameChars_of_mem_compounds isKnown
    · exact nameChars_of_mem_pieces
        (restChars.of_suffix (suffix_of_afterCompound? isAfter)) inMore
  · exact nameChars_of_mem_pieces restChars isSegment

/-- A value refers to a property by its name. -/
theorem nameChars_of_variableOf?
    {value target : String}
    (isVariable : variableOf? value = some target) :
    NameChars target.toList := by
  unfold variableOf? at isVariable
  obtain ⟨opened, _, afterOpened⟩ := Option.bind_eq_some_iff.mp isVariable
  obtain ⟨rest, _, afterRest⟩ := Option.bind_eq_some_iff.mp afterOpened
  have isTarget : String.ofList (rest.takeWhile isNameChar) = target := by
    grind
  rw [← isTarget, String.toList_ofList]
  exact nameChars_takeWhile rest

/-- A declaration gives its property a name. -/
theorem nameChars_of_scanDeclaration?
    {previous : Option Char}
    {chars after : List Char}
    {found : List Char × List Char}
    (isFound : scanDeclaration? previous chars = some (found, after)) :
    NameChars found.1 := by
  unfold scanDeclaration? at isFound
  split at isFound
  · cases isFound
  · obtain ⟨rest, _, afterRest⟩ := Option.bind_eq_some_iff.mp isFound
    simp only at afterRest
    split at afterRest
    · cases afterRest
    · obtain ⟨behindColon, _, afterColon⟩ := Option.bind_eq_some_iff.mp afterRest
      obtain ⟨value, _, isPair⟩ := Option.bind_eq_some_iff.mp afterColon
      cases isPair
      exact nameChars_takeWhile rest

theorem prefix_of_scanDeclaration?
    {previous : Option Char}
    {chars after : List Char}
    {found : List Char × List Char}
    (isFound : scanDeclaration? previous chars = some (found, after)) :
    ['-', '-'] <+: chars := by
  unfold scanDeclaration? at isFound
  split at isFound
  · cases isFound
  · obtain ⟨rest, isAfter, _⟩ := Option.bind_eq_some_iff.mp isFound
    exact prefix_of_after? isAfter

theorem suffix_of_scanValue?
    {chars value after : List Char}
    (isFound : scanValue? chars = some (value, after)) :
    after <:+ chars := by
  unfold scanValue? at isFound
  simp only at isFound
  split at isFound
  · cases isFound
  · split at isFound
    · cases isFound
      exact List.nil_suffix
    · rename_i c behind remaining
      split at isFound
      · cases isFound
        have isBehind := List.dropWhile_suffix (l := skipBlank chars)
          (fun c => c != ';' && c != '\x7b' && c != '\x7d')
        rw [remaining] at isBehind
        exact (List.suffix_cons _ _).trans
          (isBehind.trans (List.dropWhile_suffix _))
      · cases isFound

/-- What stands behind a declaration is the end of the text. -/
theorem suffix_of_scanDeclaration?
    {previous : Option Char}
    {chars after : List Char}
    {found : List Char × List Char}
    (isFound : scanDeclaration? previous chars = some (found, after)) :
    after <:+ chars := by
  unfold scanDeclaration? at isFound
  split at isFound
  · cases isFound
  · obtain ⟨rest, isAfter, afterRest⟩ := Option.bind_eq_some_iff.mp isFound
    simp only at afterRest
    split at afterRest
    · cases afterRest
    · obtain ⟨behindColon, isBehindColon, afterColon⟩ :=
        Option.bind_eq_some_iff.mp afterRest
      obtain ⟨value, isValue, isPair⟩ := Option.bind_eq_some_iff.mp afterColon
      cases isPair
      have inRest : behindColon <:+ rest :=
        (suffix_of_after? isBehindColon).trans
          ((List.dropWhile_suffix _).trans (List.dropWhile_suffix _))
      have inChars : rest <:+ chars := suffix_of_after? isAfter
      exact (suffix_of_scanValue? isValue).trans (inRest.trans inChars)

theorem nameChars_of_mem_declarations
    {context : Context}
    {place : Place}
    {body : List Char}
    {declaration : Declaration}
    (isDeclared : declaration ∈ declarations context place body) :
    NameChars declaration.name.toList := by
  obtain ⟨found, isFound, rfl⟩ := List.mem_map.mp isDeclared
  obtain ⟨_, _, _, isScanned⟩ := exists_scan_of_mem_findAllFrom isFound
  rw [String.toList_ofList]
  exact nameChars_of_scanDeclaration? isScanned

/-- The declarations of a region are declarations of its blocks. -/
theorem exists_block_of_mem_scan
    {kinds : Kinds}
    {inDarkMedia : Bool}
    {place : Place}
    {region : List Char}
    {declaration : Declaration}
    (isScanned : declaration ∈ scan kinds inDarkMedia place region) :
    ∃ context inner body, declaration ∈ declarations context inner body := by
  induction region using cut_induction generalizing inDarkMedia place with
  | uncut region isUncut =>
      rw [scan_of_uncut isUncut] at isScanned
      cases isScanned
  | cut region cut isCut ofInside ofAfter =>
      rw [scan_of_cut isCut, List.mem_append] at isScanned
      rcases isScanned with inBlock | isBehind
      · rcases cases_of_mem_scanBlock inBlock with
          ⟨_, isInside⟩ | ⟨_, context, _, isDeclared⟩
        · exact ofInside isInside
        · exact ⟨context, _, _, isDeclared⟩
      · exact ofAfter isBehind

/-- Every property that is taken from a style sheet has a name. -/
theorem nameChars_of_mem_extract
    {kinds : Kinds}
    {css : String}
    {declaration : Declaration}
    (isExtracted : declaration ∈ extract kinds css) :
    NameChars declaration.name.toList := by
  obtain ⟨_, _, _, isDeclared⟩ := exists_block_of_mem_scan isExtracted
  exact nameChars_of_mem_declarations isDeclared

end Stylesheet

end DesignTokens
