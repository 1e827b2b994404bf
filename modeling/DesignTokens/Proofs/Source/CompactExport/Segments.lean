import DesignTokens.Proofs.Source.CompactExport.Contents
import DesignTokens.Proofs.Text.Casing
import DesignTokens.Proofs.Text.Search

namespace DesignTokens.CompactExport

/-!
# Segments of token paths

Normalizing a segment leaves lowercase characters and hyphens, and it leaves a
text of these as it is.  So the segments of a token path are normal and hold no
slash, but for the last one of a path that ends with a slash: that one is the
whole path as written.
-/

open DesignTokens.Text

/-! Normalized segments. -/

theorem mem_of_mem_joinWith
    {separator : String}
    {texts : List String}
    {c : Char}
    (isChar : c ∈ (joinWith separator texts).toList) :
    c ∈ separator.toList ∨ ∃ text ∈ texts, c ∈ text.toList := by
  cases texts with
  | nil => simp [joinWith] at isChar
  | cons first rest =>
      rw [toList_joinWith_cons] at isChar
      simp only [List.mem_append, List.mem_flatMap] at isChar
      rcases isChar with isFirst | ⟨text, isText, isSeparator | isLater⟩
      · exact .inr ⟨first, List.mem_cons_self, isFirst⟩
      · exact .inl isSeparator
      · exact .inr ⟨text, List.mem_cons_of_mem _ isText, isLater⟩

/--
Every character of a normalized segment is a hyphen or stands, not
blank, in lowercase.
-/
theorem eq_hyphen_or_of_mem_normalizeSegment
    {segment : String}
    {c : Char}
    (isChar : c ∈ (normalizeSegment segment).toList) :
    c = '-' ∨ c ∈ lowerChars (trimChars segment.toList) ∧ isBlank c = false := by
  rcases mem_of_mem_joinWith isChar with isHyphen | ⟨text, isText, isLetter⟩
  · exact .inl (List.mem_singleton.mp isHyphen)
  · obtain ⟨word, isWord, rfl⟩ := List.mem_map.mp isText
    rw [String.toList_ofList] at isLetter
    exact .inr ⟨mem_of_mem_words isWord isLetter,
      (ink_of_mem_words isWord).2 c isLetter⟩

/--
Lowercasing leaves the characters of a text as they are, and none
of them is blank.
-/
def SettledInk (text : String) : Prop :=
  ∀ c ∈ text.toList, IsSettled c ∧ isBlank c = false

theorem settledInk_normalizeSegment
    (segment : String) :
    SettledInk (normalizeSegment segment) := by
  intro c isChar
  rcases eq_hyphen_or_of_mem_normalizeSegment isChar with rfl | ⟨isLowered, ink⟩
  · decide +kernel
  · exact ⟨isSettled_of_mem_lowerFrom isLowered, ink⟩

/-- A text without blanks and capitals is normal. -/
theorem SettledInk.normalizeSegment_eq
    {text : String}
    (settledInk : SettledInk text) :
    normalizeSegment text = text := by
  have ink : ∀ c ∈ text.toList, isBlank c = false :=
    fun c isChar => (settledInk c isChar).2
  have settled : ∀ c ∈ text.toList, IsSettled c :=
    fun c isChar => (settledInk c isChar).1
  rw [normalizeSegment, (trimmed_of_not_blank ink).trimChars_eq, lowerChars,
    lowerFrom_of_settled settled]
  by_cases isThere : text.toList = []
  · obtain rfl := String.toList_eq_nil_iff.mp isThere
    rfl
  · rw [words_of_not_blank isThere ink]
    simp [joinWith]

/-- Normalizing twice is normalizing once. -/
theorem normalizeSegment_normalizeSegment
    (segment : String) :
    normalizeSegment (normalizeSegment segment) = normalizeSegment segment :=
  (settledInk_normalizeSegment segment).normalizeSegment_eq

/-- A segment as the segments of token paths are meant to be. -/
structure IsNormal (segment : String) : Prop where
  fixed :
    normalizeSegment segment = segment
  noSlash :
    '/' ∉ segment.toList

/-- Normalizing adds no slash. -/
theorem isNormal_normalizeSegment
    {segment : String}
    (noSlash : '/' ∉ segment.toList) :
    IsNormal (normalizeSegment segment) where
  fixed := normalizeSegment_normalizeSegment segment
  noSlash := by
    intro isChar
    rcases eq_hyphen_or_of_mem_normalizeSegment isChar with
      isHyphen | ⟨isLowered, _⟩
    · exact absurd isHyphen (by decide)
    · exact noSlash
        ((trimChars_sublist _).subset
          (mark_mem_of_mem_lowerFrom (by decide) isLowered))

/-! Paths of entries. -/

namespace Entry

/-- Whether a path ends with a slash, so that no name is left for the token. -/
def EndsInSlash (entry : Entry) : Prop :=
  entry.path.toList.getLast? = some '/'

theorem slash_not_mem_of_mem_segments
    {entry : Entry}
    {segment : String}
    (isSegment : segment ∈ entry.segments) :
    '/' ∉ segment.toList := by
  obtain ⟨piece, isPiece, rfl⟩ := List.mem_map.mp isSegment
  rw [String.toList_ofList]
  exact separator_not_mem_of_mem_splitOn isPiece

/-- A path has a last segment as written. -/
theorem exists_getLast?_segments
    (entry : Entry) :
    ∃ last, entry.segments.getLast? = some last ∧ last ∈ entry.segments ∧
      (last = "" ↔ entry.path = "" ∨ entry.EndsInSlash) := by
  have isThere := splitOn_ne_nil '/' entry.path.toList
  have isLast := List.getLast?_eq_some_getLast isThere
  generalize (splitOn '/' entry.path.toList).getLast isThere = piece at isLast
  have isEnd : entry.segments.getLast? = some (String.ofList piece) := by
    rw [segments, splitText, List.getLast?_map, isLast]
    rfl
  refine ⟨_, isEnd, List.mem_of_getLast? isEnd, ?_⟩
  rw [String.ofList_eq_empty_iff, ← String.toList_eq_nil_iff, EndsInSlash,
    ← getLast?_splitOn_eq_nil_iff, isLast, Option.some.injEq]

/-- Every segment of a token path but the last is normal. -/
theorem isNormal_of_mem_dropLast_tokenPath
    {entry : Entry}
    {segment : String}
    (isSegment : segment ∈ entry.tokenPath.dropLast) :
    IsNormal segment := by
  rw [tokenPath, List.dropLast_concat] at isSegment
  obtain ⟨written, isWritten, rfl⟩ := List.mem_map.mp isSegment
  exact isNormal_normalizeSegment (slash_not_mem_of_mem_segments
    (List.mem_of_mem_tail (List.mem_of_mem_dropLast isWritten)))

/-- The last segment is normal, or the whole path where that ends with a slash. -/
theorem getLast?_tokenPath
    {entry : Entry}
    (hasPath : entry.path ≠ "") :
    (¬ entry.EndsInSlash →
      ∃ segment, entry.tokenPath.getLast? = some segment ∧ IsNormal segment) ∧
      (entry.EndsInSlash → entry.tokenPath.getLast? = some entry.path) := by
  obtain ⟨last, isLast, isSegment, isEmptyIff⟩ := exists_getLast?_segments entry
  rw [tokenPath, isLast, Option.getD_some, List.getLast?_concat]
  constructor
  · intro endsOtherwise
    have isNamed : last ≠ "" :=
      fun isEmpty => (isEmptyIff.mp isEmpty).elim hasPath endsOtherwise
    rw [if_neg isNamed]
    exact ⟨_, rfl,
      isNormal_normalizeSegment (slash_not_mem_of_mem_segments isSegment)⟩
  · intro endsInSlash
    rw [if_pos (isEmptyIff.mpr (.inr endsInSlash))]

/-- A path that ends with a slash is not a normal segment. -/
theorem EndsInSlash.not_isNormal
    {entry : Entry}
    (endsInSlash : entry.EndsInSlash) :
    ¬ IsNormal entry.path :=
  fun isNormal => isNormal.noSlash (List.mem_of_getLast? endsInSlash)

/-- All segments of a token path are normal just in case the path ends otherwise. -/
theorem tokenPath_isNormal_iff
    {entry : Entry}
    (hasPath : entry.path ≠ "") :
    (∀ segment ∈ entry.tokenPath, IsNormal segment) ↔ ¬ entry.EndsInSlash := by
  obtain ⟨otherwise, ofSlash⟩ := getLast?_tokenPath hasPath
  constructor
  · intro allNormal endsInSlash
    exact endsInSlash.not_isNormal
      (allNormal _ (List.mem_of_getLast? (ofSlash endsInSlash)))
  · intro endsOtherwise segment isSegment
    obtain ⟨last, isLast, isNormal⟩ := otherwise endsOtherwise
    rw [← List.dropLast_append_getLast? last isLast] at isSegment
    rcases List.mem_append.mp isSegment with isEarlier | isEnd
    · exact isNormal_of_mem_dropLast_tokenPath isEarlier
    · obtain rfl := List.mem_singleton.mp isEnd
      exact isNormal

end Entry

/-- An export that is parsed has no empty path. -/
theorem path_ne_empty_of_parse
    {registry : Registry}
    {source given : Wire}
    {theme : Theme}
    (isParsed : parse registry source given = .ok theme)
    {entry : Entry}
    (isEntry : entry ∈ entries source) :
    entry.path ≠ "" := by
  unfold parse at isParsed
  obtain ⟨accepted, isAccepted, _⟩ := bind_eq_ok_iff.mp isParsed
  have noReasons : reasons source = [] :=
    succeeds_accept_iff.mp ⟨accepted, isAccepted⟩
  obtain ⟨member, isMember, isText⟩ := List.mem_filterMap.mp isEntry
  have isPath : entry.path = member.1 := by
    split at isText
    · obtain rfl := Option.some.inj isText
      rfl
    · cases isText
  intro isEmpty
  rw [isPath] at isEmpty
  cases source with
  | obj members =>
      cases members with
      | nil => cases isMember
      | cons first rest =>
          have accepted := List.filterMap_eq_nil_iff.mp noReasons member isMember
          have isBlankPath : trim "" = "" := by decide
          simp [isEmpty, isBlankPath] at accepted
  | _ => cases isMember

/--
Every token of a parsed export stands at the path of an entry whose token it is.
All segments of the path but the last are normal: they are fixed by normalizing
and hold no slash.  The last one is normal too, unless the path of the entry
ends with a slash; then it is that path, slashes and capitals included.
-/
theorem segments_of_parse
    {registry : Registry}
    {source given : Wire}
    {theme : Theme}
    (isParsed : parse registry source given = .ok theme)
    {located : Located}
    (isLocated : located ∈ theme.walk) :
    ∃ entry ∈ entries source,
      entry.tokenPath = located.path ∧
      entry.token? registry = .ok (some located.token) ∧
      (∀ segment ∈ located.path.dropLast, IsNormal segment) ∧
      ((∀ segment ∈ located.path, IsNormal segment) ↔ ¬ entry.EndsInSlash) ∧
      (entry.EndsInSlash → located.path.getLast? = some entry.path) := by
  obtain ⟨entry, isEntry, isPath, isToken⟩ :=
    Theme.fits_of_mem_walk (fun one isOne => (orderly_of_parse isParsed isOne).2)
      isLocated
  have hasPath := path_ne_empty_of_parse isParsed isEntry
  refine ⟨entry, isEntry, isPath, isToken, ?_⟩
  rw [← isPath]
  exact ⟨fun _ isSegment => Entry.isNormal_of_mem_dropLast_tokenPath isSegment,
    Entry.tokenPath_isNormal_iff hasPath, (Entry.getLast?_tokenPath hasPath).2⟩

/-- A path with capitals and blanks beside one that ends with a slash. -/
def slashedExport : Wire :=
  .obj [("Colors/Brand  Primary/On Dark", .str "#fff"),
    ("Colors/Brand/", .str "#000")]

theorem exists_parse_slashedExport :
    ∃ theme, parse Registry.standard slashedExport .null = .ok theme ∧
      theme.walk.map Located.path =
        [["brand-primary", "on-dark"], ["brand", "Colors/Brand/"]] := by
  have shown :
      (parse Registry.standard slashedExport .null).toOption.map
          (fun theme => theme.walk.map Located.path) =
        some [["brand-primary", "on-dark"], ["brand", "Colors/Brand/"]] := by
    rw [Registry.standard_eq]
    decide +kernel
  obtain ⟨theme, isThere, arePaths⟩ := Option.map_eq_some_iff.mp shown
  exact ⟨theme, eq_ok_of_toOption isThere, arePaths⟩

/--
The groups of the sample export are normal, and the second token is
named by its path.
-/
theorem segments_of_parse_slashedExport :
    ∃ theme, parse Registry.standard slashedExport .null = .ok theme ∧
      ∃ located ∈ theme.walk, located.path = ["brand", "Colors/Brand/"] ∧
        IsNormal "brand" ∧
        ∃ entry ∈ entries slashedExport, entry.EndsInSlash ∧
          entry.path = "Colors/Brand/" := by
  obtain ⟨theme, isParsed, arePaths⟩ := exists_parse_slashedExport
  have isListed : ["brand", "Colors/Brand/"] ∈ theme.walk.map Located.path :=
    by simp [arePaths]
  obtain ⟨located, isLocated, isPath⟩ := List.mem_map.mp isListed
  obtain ⟨entry, isEntry, _, _, areNormal, allNormal, ofSlash⟩ :=
    segments_of_parse isParsed isLocated
  rw [isPath] at areNormal allNormal ofSlash
  have endsInSlash : entry.EndsInSlash := by
    by_contra endsOtherwise
    exact (allNormal.mpr endsOtherwise "Colors/Brand/" (by simp)).noSlash
      (by decide)
  exact ⟨theme, isParsed, located, isLocated, isPath, areNormal "brand" (by simp),
    entry, isEntry, endsInSlash, (Option.some.inj (ofSlash endsInSlash)).symm⟩

/-- A segment of a parsed export that holds slashes and capitals. -/
theorem slashed_segment_of_parse :
    ∃ theme, parse Registry.standard slashedExport .null = .ok theme ∧
      ∃ located ∈ theme.walk, ∃ segment ∈ located.path,
        normalizeSegment segment ≠ segment ∧ '/' ∈ segment.toList := by
  obtain ⟨theme, isParsed, arePaths⟩ := exists_parse_slashedExport
  have isListed : ["brand", "Colors/Brand/"] ∈ theme.walk.map Located.path :=
    by simp [arePaths]
  obtain ⟨located, isLocated, isPath⟩ := List.mem_map.mp isListed
  exact ⟨theme, isParsed, located, isLocated, "Colors/Brand/", by simp [isPath],
    by decide +kernel, by decide⟩

end DesignTokens.CompactExport
