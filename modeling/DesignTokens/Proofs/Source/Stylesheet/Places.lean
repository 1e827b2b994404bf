import DesignTokens.Proofs.Source.Stylesheet.Comments
import DesignTokens.Proofs.Source.Stylesheet.Nesting

namespace DesignTokens.Stylesheet

/-!
# Places of declarations

What is taken from a region stands in it one behind the other, wherever its
blocks are closed.  Taking out comments drops no line ends, so that counting
them in front of a name gives the line on which the name stands in the style
sheet itself.
-/

open DesignTokens.Text

/-! Characters that stay when comments are taken out. -/

/-- The offsets of the line ends of a text that begins at an offset. -/
def lineEndOffsets (offset : Nat) : List Char → List Nat
  | [] => []
  | c :: rest =>
      if c = '\n' then offset :: lineEndOffsets (offset + 1) rest
      else lineEndOffsets (offset + 1) rest

/--
The offsets at which the characters that stay when comments are taken out stand
in the text itself, which begins at an offset.
-/
def origins (offset : Nat) (chars : List Char) : List Nat :=
  match chars with
  | [] => []
  | '/' :: '*' :: rest =>
      match _isClosed : closeComment? rest with
      | some found =>
          lineEndOffsets (offset + 2) found.1 ++
            origins (offset + 2 + found.1.length + 2) found.2
      | none => List.range' offset chars.length
  | _ :: rest => offset :: origins (offset + 1) rest
termination_by chars.length
decreasing_by
  · have shorter := length_closeComment? _isClosed
    simp only [List.length_cons]
    omega
  · simp

/--
Some characters of a text that begins at an offset are left out, none of them a
line end; the others stay, and their offsets are listed.
-/
inductive Keeps : Nat → List Char → List Char → List Nat → Prop where
  | nothing
      (offset : Nat) :
      Keeps offset [] [] []
  | stays
      {offset : Nat}
      {chars kept : List Char}
      {offsets : List Nat}
      (c : Char) :
      Keeps (offset + 1) chars kept offsets →
      Keeps offset (c :: chars) (c :: kept) (offset :: offsets)
  | leaves
      {offset : Nat}
      {chars kept : List Char}
      {offsets : List Nat}
      {c : Char} :
      c ≠ '\n' →
      Keeps (offset + 1) chars kept offsets →
      Keeps offset (c :: chars) kept offsets

namespace Keeps

variable {offset : Nat} {chars kept : List Char} {offsets : List Nat}

theorem append
    (first : Keeps offset chars kept offsets)
    {moreChars moreKept : List Char}
    {moreOffsets : List Nat}
    (second : Keeps (offset + chars.length) moreChars moreKept moreOffsets) :
    Keeps offset (chars ++ moreChars) (kept ++ moreKept)
      (offsets ++ moreOffsets) := by
  induction first with
  | nothing => exact second
  | stays c _ inductionHypothesis =>
      refine .stays c (inductionHypothesis ?_)
      rwa [List.length_cons, Nat.add_comm _ 1, ← Nat.add_assoc] at second
  | leaves isOther _ inductionHypothesis =>
      refine .leaves isOther (inductionHypothesis ?_)
      rwa [List.length_cons, Nat.add_comm _ 1, ← Nat.add_assoc] at second

theorem whole
    (offset : Nat)
    (chars : List Char) :
    Keeps offset chars chars (List.range' offset chars.length) := by
  induction chars generalizing offset with
  | nil => exact .nothing offset
  | cons c rest inductionHypothesis =>
      exact .stays c (inductionHypothesis (offset + 1))

theorem lineEnds
    (offset : Nat)
    (chars : List Char) :
    Keeps offset chars (Stylesheet.lineEnds chars)
      (lineEndOffsets offset chars) := by
  induction chars generalizing offset with
  | nil => exact .nothing offset
  | cons c rest inductionHypothesis =>
      have restKept := inductionHypothesis (offset + 1)
      rw [Stylesheet.lineEnds, List.filter_cons, lineEndOffsets]
      by_cases isEnd : c = '\n'
      · rw [if_pos (beq_iff_eq.mpr isEnd), if_pos isEnd]
        exact .stays c restKept
      · rw [if_neg (beq_iff_eq.not.mpr isEnd), if_neg isEnd]
        exact .leaves isEnd restKept

/-- A character that stays has as many line ends in front of it as it had. -/
theorem exists_origin
    (keeps : Keeps offset chars kept offsets)
    {front behind : List Char}
    {c : Char}
    (isPlace : kept = front ++ c :: behind) :
    ∃ before after,
      chars = before ++ c :: after ∧
        offsets[front.length]? = some (offset + before.length) ∧
        before.count '\n' = front.count '\n' := by
  induction keeps generalizing front with
  | nothing => simp at isPlace
  | @stays offset chars kept offsets first _ inductionHypothesis =>
      cases front with
      | nil =>
          obtain ⟨rfl, _⟩ := List.cons.inj isPlace
          exact ⟨[], chars, rfl, rfl, rfl⟩
      | cons other front =>
          obtain ⟨rfl, isLater⟩ := List.cons.inj isPlace
          obtain ⟨before, after, rfl, isOffset, sameCount⟩ :=
            inductionHypothesis isLater
          refine ⟨first :: before, after, rfl, ?_, ?_⟩
          · rw [List.length_cons, List.getElem?_cons_succ, isOffset,
              List.length_cons]
            congr 1
            omega
          · rw [List.count_cons, List.count_cons, sameCount]
  | @leaves offset chars kept offsets other isOther _ inductionHypothesis =>
      obtain ⟨before, after, rfl, isOffset, sameCount⟩ :=
        inductionHypothesis isPlace
      refine ⟨other :: before, after, rfl, ?_, ?_⟩
      · rw [isOffset, List.length_cons]
        congr 1
        omega
      · rw [List.count_cons_of_ne isOther, sameCount]

end Keeps

/-- Taking out comments drops characters, none of them a line end. -/
theorem keeps_blankComments
    (offset : Nat)
    (chars : List Char) :
    Keeps offset chars (blankComments chars) (origins offset chars) := by
  fun_induction origins offset chars with
  | case1 offset =>
      rw [blankComments]
      exact .nothing offset
  | case2 offset rest found isClosed inductionHypothesis =>
      rw [blankComments_comment isClosed]
      have isComment :
          '/' :: '*' :: rest = ['/', '*'] ++ (found.1 ++ (['*', '/'] ++ found.2)) :=
        congrArg ('/' :: '*' :: ·) (eq_append_of_closeComment? isClosed)
      rw [isComment]
      have opened : Keeps offset ['/', '*'] [] [] :=
        .leaves (by decide) (.leaves (by decide) (.nothing _))
      have closed : Keeps (offset + 2 + found.1.length) ['*', '/'] [] [] :=
        .leaves (by decide) (.leaves (by decide) (.nothing _))
      exact opened.append
        ((Keeps.lineEnds _ _).append (closed.append inductionHypothesis))
  | case3 offset rest isOpen =>
      have isWhole : blankComments ('/' :: '*' :: rest) = '/' :: '*' :: rest := by
        rw [blankComments]
        split
        · rename_i found isClosed
          cases isOpen.symm.trans isClosed
        · rfl
      rw [isWhole]
      exact .whole offset _
  | case4 offset c rest noMark inductionHypothesis =>
      have noComment : ¬ ['/', '*'] <+: c :: rest := by
        rintro ⟨inner, shape⟩
        obtain ⟨rfl, rfl⟩ := List.cons.inj shape
        exact noMark inner rfl rfl
      rw [blankComments_cons noComment]
      exact .stays c inductionHypothesis

example : origins 0 "a/*\n*/b".toList = [0, 3, 6] := by decide +kernel

/-! Names that stand in a region. -/

/--
Where a region begins at a place, the name of a declaration stands in it
at its own place.
-/
def Declaration.StandsIn
    (place : Place)
    (region : List Char)
    (declaration : Declaration) : Prop :=
  declaration.name.toList ≠ [] ∧
    ∃ front behind,
      region = front ++ (['-', '-'] ++ declaration.name.toList ++ behind) ∧
        declaration.place = place.after (front ++ ['-', '-'])

/-- Declarations stand in a region, each of them behind those before it. -/
structure InOrder (place : Place) (region : List Char) (found : List Declaration) :
    Prop where
  stand : ∀ declaration ∈ found, declaration.StandsIn place region
  ascend :
    found.Pairwise (fun first second => first.place.offset < second.place.offset)

namespace Declaration.StandsIn

variable {place : Place} {region : List Char} {declaration : Declaration}

/-- What stands in a part of a region stands in the region. -/
theorem within
    {before after : List Char}
    (stands : declaration.StandsIn (place.after before) region) :
    declaration.StandsIn place (before ++ region ++ after) := by
  obtain ⟨isNamed, front, behind, rfl, isPlace⟩ := stands
  refine ⟨isNamed, before ++ front, behind ++ after, by simp, ?_⟩
  rw [isPlace, List.append_assoc, Place.after_append place before]

/-- A name stands between the two ends of its region. -/
theorem bounds
    (stands : declaration.StandsIn place region) :
    place.offset ≤ declaration.place.offset ∧
      declaration.place.offset < place.offset + region.length := by
  obtain ⟨isNamed, front, behind, rfl, isPlace⟩ := stands
  have isSome := List.length_pos_iff.mpr isNamed
  simp only [isPlace, Place.after, List.length_append, List.length_cons,
    List.length_nil]
  omega

end Declaration.StandsIn

namespace InOrder

variable {place : Place}

theorem nil
    (place : Place)
    (region : List Char) :
    InOrder place region [] :=
  ⟨by simp, .nil⟩

/--
Declarations of two parts of a region stand in order, those of the
first part first.
-/
theorem append
    {before inside gap after : List Char}
    {first second : List Declaration}
    (firstInOrder : InOrder (place.after before) inside first)
    (secondInOrder : InOrder (place.after (before ++ inside ++ gap)) after second) :
    InOrder place (before ++ inside ++ gap ++ after) (first ++ second) := by
  constructor
  · intro declaration isFound
    rcases List.mem_append.mp isFound with isFirst | isSecond
    · rw [List.append_assoc]
      exact (firstInOrder.stand declaration isFirst).within
    · have stands :
          declaration.StandsIn place (before ++ inside ++ gap ++ after ++ []) :=
        (secondInOrder.stand declaration isSecond).within
      rwa [List.append_nil] at stands
  · refine List.pairwise_append.mpr ⟨firstInOrder.ascend, secondInOrder.ascend, ?_⟩
    intro one isFirst other isSecond
    have oneBounds := (firstInOrder.stand one isFirst).bounds
    have otherBounds := (secondInOrder.stand other isSecond).bounds
    simp only [Place.after, List.length_append] at oneBounds otherBounds
    omega

end InOrder

/-- A declaration is taken where two hyphens and a name begin. -/
theorem exists_of_scanDeclaration?
    {previous : Option Char}
    {chars after : List Char}
    {found : List Char × List Char}
    (isFound : scanDeclaration? previous chars = some (found, after)) :
    found.1 ≠ [] ∧ ∃ behind, chars = ['-', '-'] ++ found.1 ++ behind := by
  unfold scanDeclaration? at isFound
  split at isFound
  · cases isFound
  · obtain ⟨rest, isAfter, afterRest⟩ := Option.bind_eq_some_iff.mp isFound
    simp only at afterRest
    split at afterRest
    · cases afterRest
    · rename_i isNamed
      obtain ⟨behindColon, _, afterColon⟩ := Option.bind_eq_some_iff.mp afterRest
      obtain ⟨value, _, isPair⟩ := Option.bind_eq_some_iff.mp afterColon
      cases isPair
      refine ⟨by simpa using isNamed, rest.dropWhile isNameChar, ?_⟩
      rw [eq_append_of_after? isAfter, List.append_assoc,
        List.takeWhile_append_dropWhile]
      rfl

/-- The declarations of a block stand in it in order. -/
theorem inOrder_declarations
    (context : Context)
    (place : Place)
    (body : List Char) :
    InOrder place body (declarations context place body) := by
  constructor
  · intro declaration isDeclared
    obtain ⟨found, isFound, rfl⟩ := List.mem_map.mp isDeclared
    obtain ⟨previous, rest, isScanned, shape⟩ :=
      exists_place_of_mem_findAllFrom suffix_of_scanDeclaration? isFound
    obtain ⟨isNamed, behind, isRest⟩ := exists_of_scanDeclaration? isScanned
    rw [List.reverse_nil, List.nil_append] at shape
    refine ⟨by simpa using isNamed, found.before, behind, ?_, rfl⟩
    rw [shape, isRest, String.toList_ofList]
  · refine List.pairwise_map.mpr
      ((pairwise_findAllFrom scanDeclaration? [] body).1.imp ?_)
    intro first second isBefore
    simp only [Place.after, List.length_append]
    omega

/--
A cut region is what stands before its block, the block, and what stands
behind it, if any.
-/
theorem exists_gap_of_cut?
    {region : List Char}
    {cut : Cut}
    (isCut : cut? region = some cut) :
    ∃ gap, region = (cut.before ++ ['\x7b']) ++ cut.inside ++ gap ++ cut.after ∧
      (gap = ['\x7d'] ∨ cut.after = []) := by
  obtain ⟨rest, isRegion, _, isClosed⟩ := shape_of_cut? isCut
  rcases untilClosed_cases 0 rest with
    ⟨inside, after, isCutThere, isRest, _⟩ | isWhole
  · obtain ⟨rfl, rfl⟩ := Prod.mk.inj (isClosed.symm.trans isCutThere)
    exact ⟨['\x7d'], by simp [isRegion, isRest], .inl rfl⟩
  · obtain ⟨isInside, isNothing⟩ := Prod.mk.inj (isClosed.symm.trans isWhole)
    exact ⟨[], by simp [isRegion, isInside, isNothing], .inr isNothing⟩

/-- What a scan of a region takes stands in the region in order. -/
theorem inOrder_scan
    (kinds : Kinds)
    (inDarkMedia : Bool)
    (place : Place)
    (region : List Char) :
    InOrder place region (scan kinds inDarkMedia place region) := by
  induction region using cut_induction generalizing inDarkMedia place with
  | uncut region isUncut =>
      rw [scan_of_uncut isUncut]
      exact .nil place region
  | cut region cut isCut ofInside ofAfter =>
      have blockInOrder :
          InOrder (place.after (cut.before ++ ['\x7b'])) cut.inside
            (scanBlock kinds inDarkMedia (headingOf cut.before)
              (place.after (cut.before ++ ['\x7b'])) cut.inside) := by
        unfold scanBlock
        split
        · exact ofInside _ _
        · split
          · exact inOrder_declarations _ _ _
          · exact .nil _ _
      obtain ⟨gap, shape, isClosed⟩ := exists_gap_of_cut? isCut
      rw [scan_of_cut isCut, shape]
      apply blockInOrder.append
      rcases isClosed with rfl | isNothing
      · rw [← Place.after_append, List.append_assoc _ cut.inside]
        exact ofAfter _ _
      · rw [isNothing, scan_of_uncut rfl]
        exact .nil _ _

/-! Lines of names. -/

/--
The name of a declaration stands in the text without comments at the place of
the declaration, and its first character stands in the style sheet itself at the
given offset, on the line of the declaration.
-/
structure Declaration.NamedAt
    (css : String)
    (origin : Nat)
    (declaration : Declaration) : Prop where
  isNamed : declaration.name.toList ≠ []
  stands : declaration.name.toList <+:
    (blankComments css.toList).drop declaration.place.offset
  stays : (origins 0 css.toList)[declaration.place.offset]? = some origin
  begins : css.toList[origin]? = declaration.name.toList.head?
  isLine : declaration.place.line = 1 + (css.toList.take origin).count '\n'

/--
A name that stands in the text without comments has its line in the
style sheet itself.
-/
theorem Declaration.StandsIn.exists_namedAt
    {css : String}
    {declaration : Declaration}
    (stands : declaration.StandsIn Place.start (blankComments css.toList)) :
    ∃ origin, declaration.NamedAt css origin := by
  obtain ⟨isNamed, front, behind, isText, isPlace⟩ := stands
  obtain ⟨first, others, isName⟩ := List.exists_cons_of_ne_nil isNamed
  have isOffset : declaration.place.offset = (front ++ ['-', '-']).length := by
    simp [isPlace, Place.after, Place.start]
  have isFirst : blankComments css.toList =
      (front ++ ['-', '-']) ++ first :: (others ++ behind) := by
    simp [isText, isName]
  obtain ⟨before, after, isWhole, isOrigin, sameCount⟩ :=
    (keeps_blankComments 0 css.toList).exists_origin isFirst
  refine ⟨before.length, isNamed, ?_, ?_, ?_, ?_⟩
  · rw [isOffset, isFirst, List.drop_left, isName]
    exact ⟨behind, rfl⟩
  · rw [isOffset, isOrigin, Nat.zero_add]
  · rw [isWhole, isName]
    simp
  · rw [isWhole, List.take_left, sameCount, isPlace]
    simp [Place.line, Place.after, Place.start, Nat.add_comm]

/--
Whatever a text holds and whichever blocks are asked for, the declarations that
are extracted come in the order of their names in the text without comments, no
two from one place, and each of them carries the line on which its name begins
in the text itself.
-/
theorem extract_follows_text
    (kinds : Kinds)
    (css : String) :
    ((extract kinds css).map (fun declaration => declaration.place.offset)).Pairwise
      (· < ·) ∧
      ∀ declaration ∈ extract kinds css,
        ∃ origin, declaration.NamedAt css origin := by
  have inOrder := inOrder_scan kinds false Place.start (blankComments css.toList)
  refine ⟨List.pairwise_map.mpr inOrder.ascend, fun declaration isExtracted => ?_⟩
  exact (inOrder.stand declaration isExtracted).exists_namedAt

/-- A comment of two lines, then a block and a comment that are not closed. -/
def tornSheet : String :=
  ":root \x7b /* ink\n */ --ink: #000; \x7d\n.dark \x7b\n--ink: #fff; /* open"

/--
Both declarations of the torn sheet are found, the second one on
the fourth line.
-/
theorem extract_tornSheet :
    ((extract Kinds.all tornSheet).map
      (fun declaration => declaration.place.offset)).Pairwise
        (· < ·) ∧
      ∃ declaration ∈ extract Kinds.all tornSheet,
        declaration.value = "#fff" ∧ declaration.place.line = 4 ∧
          ∃ origin, declaration.NamedAt tornSheet origin := by
  obtain ⟨ascend, named⟩ := extract_follows_text Kinds.all tornSheet
  have both :
      (extract Kinds.all tornSheet).map
          (fun declaration => (declaration.value, declaration.place.line)) =
        [("#000", 2), ("#fff", 4)] := by
    decide +kernel
  obtain ⟨declaration, isExtracted, isSecond⟩ :
      ∃ declaration ∈ extract Kinds.all tornSheet,
        (declaration.value, declaration.place.line) = ("#fff", 4) := by
    rw [← List.mem_map, both]
    exact List.mem_cons_of_mem _ List.mem_cons_self
  obtain ⟨isValue, isLine⟩ := Prod.mk.inj isSecond
  exact ⟨ascend, declaration, isExtracted, isValue, isLine,
    named declaration isExtracted⟩

end DesignTokens.Stylesheet
