import DesignTokens.Proofs.Source.Stylesheet.Blocks
import DesignTokens.Proofs.Source.Stylesheet.Comments
import DesignTokens.Proofs.Source.Stylesheet.Scan
import DesignTokens.Proofs.Text.Blank

namespace DesignTokens.Stylesheet

/-!
# Style sheets put together

A style sheet that ends behind its last block can be followed by any other one:
the declarations of both are found, one after the other.  A balanced style sheet
inside a transparent block gives the declarations that it gives alone.  In both
cases the declarations only move.

Braces count where comments have been taken out, as they do in a scan.
-/

open DesignTokens.Text

/-- The last character that is not blank, if there is one. -/
def lastMark? (chars : List Char) : Option Char :=
  chars.reverse.find? (fun c => !isBlank c)

/-- Nothing but blanks stands behind the last brace that closes a block. -/
def EndsBehindBlock (chars : List Char) : Prop :=
  lastMark? chars = none ∨ lastMark? chars = some '\x7d'

instance (chars : List Char) : Decidable (EndsBehindBlock chars) :=
  inferInstanceAs (Decidable (_ ∨ _))

theorem EndsBehindBlock.of_append
    {first second : List Char}
    (ends : EndsBehindBlock (first ++ second)) :
    EndsBehindBlock second := by
  unfold EndsBehindBlock lastMark? at *
  rw [List.reverse_append, List.find?_append] at ends
  cases isMark : second.reverse.find? (fun c => !isBlank c) with
  | none => exact .inl rfl
  | some c =>
      rw [isMark] at ends
      exact ends

/-- A flat text that ends behind a block is blank. -/
theorem EndsBehindBlock.isBlank_of_mem
    {chars : List Char}
    (ends : EndsBehindBlock chars)
    (noClose : '\x7d' ∉ chars)
    {c : Char}
    (isThere : c ∈ chars) :
    isBlank c = true := by
  rcases ends with isNone | isClose
  · simpa using List.find?_eq_none.mp isNone c (List.mem_reverse.mpr isThere)
  · exact (noClose (List.mem_reverse.mp (List.mem_of_find?_eq_some isClose))).elim

/-- Blanks in front of a heading do not belong to it. -/
theorem headingOf_blank_append
    {blanks : List Char}
    (blank : ∀ c ∈ blanks, isBlank c = true)
    (before : List Char) :
    headingOf (blanks ++ before) = headingOf before := by
  have noStop : ∀ c ∈ blanks.reverse, (c != ';' && c != '\x7d') = true := by
    intro c isThere
    have isBlankThere := blank c (List.mem_reverse.mp isThere)
    have notBlank : isBlank ';' = false ∧ isBlank '\x7d' = false := by decide
    rw [Bool.and_eq_true, bne_iff_ne, bne_iff_ne]
    constructor
    · rintro rfl
      simp [notBlank.1] at isBlankThere
    · rintro rfl
      simp [notBlank.2] at isBlankThere
  have trimmed (text : List Char) :
      trimChars (blanks ++ text) = trimChars text := by
    rw [trimChars, trimChars, skipBlank, skipBlank,
      List.dropWhile_append_of_pos blank]
  unfold headingOf
  rw [List.reverse_append, List.takeWhile_append]
  split
  · rename_i isWhole
    have sameText := (List.takeWhile_prefix _).eq_of_length isWhole
    rw [List.takeWhile_eq_self_iff.mpr noStop, List.reverse_append,
      List.reverse_reverse, trimmed, sameText]
  · rfl

/-- What stands in front of a heading without stops is the heading itself. -/
theorem headingOf_of_plain
    {before : List Char}
    (plain : ∀ c ∈ before, c ≠ ';' ∧ c ≠ '\x7d') :
    headingOf before = trimChars before := by
  have noStop : ∀ c ∈ before.reverse, (c != ';' && c != '\x7d') = true := by
    intro c isThere
    simpa using plain c (List.mem_reverse.mp isThere)
  rw [headingOf, List.takeWhile_eq_self_iff.mpr noStop, List.reverse_reverse]

/-- Blanks in front of a region only move it. -/
theorem scan_blank_append
    {blanks : List Char}
    (noOpen : '\x7b' ∉ blanks)
    (blank : ∀ c ∈ blanks, isBlank c = true)
    (kinds : Kinds)
    (inDarkMedia : Bool)
    (place : Place)
    (region : List Char) :
    scan kinds inDarkMedia place (blanks ++ region) =
      scan kinds inDarkMedia (place.after blanks) region := by
  cases isCut : cut? region with
  | none =>
      have uncut : cut? (blanks ++ region) = none := by
        rw [cut?_flat_append noOpen, isCut]
        rfl
      rw [scan_of_uncut uncut, scan_of_uncut isCut]
  | some cut =>
      have cutBehind : cut? (blanks ++ region) =
          some ⟨blanks ++ cut.before, cut.inside, cut.after⟩ := by
        rw [cut?_flat_append noOpen, isCut]
        rfl
      rw [scan_of_cut cutBehind, scan_of_cut isCut, headingOf_blank_append blank,
        List.append_assoc, Place.after_append place blanks]

/--
A region with a balanced block gives what the block gives, and then
what the rest gives.
-/
theorem scan_block
    {before inside : List Char}
    (noOpen : '\x7b' ∉ before)
    (balanced : Balanced inside)
    (kinds : Kinds)
    (inDarkMedia : Bool)
    (place : Place)
    (after : List Char) :
    scan kinds inDarkMedia place (before ++ '\x7b' :: (inside ++ '\x7d' :: after)) =
      scanBlock kinds inDarkMedia (headingOf before)
        (place.after (before ++ ['\x7b'])) inside ++
        scan kinds inDarkMedia
          (place.after (before ++ '\x7b' :: (inside ++ ['\x7d']))) after := by
  have samePlace :
      (place.after (before ++ ['\x7b'])).after (inside ++ ['\x7d']) =
        place.after (before ++ '\x7b' :: (inside ++ ['\x7d'])) := by
    rw [← Place.after_append, List.append_assoc, List.singleton_append]
  rw [scan_of_cut (cut?_block noOpen balanced after), samePlace]

/--
A balanced region that ends behind a block is scanned as if nothing
stood behind it.
-/
theorem scan_append
    (kinds : Kinds)
    (inDarkMedia : Bool)
    (place : Place)
    {first : List Char}
    (balanced : Balanced first)
    (ends : EndsBehindBlock first)
    (second : List Char) :
    scan kinds inDarkMedia place (first ++ second) =
      scan kinds inDarkMedia place first ++
        scan kinds inDarkMedia (place.after first) second := by
  -- The text behind the first block is balanced, ends behind a block and is
  -- shorter.
  induction size : first.length using
    Nat.strong_induction_on generalizing place first with
  | _ length inductionHypothesis =>
      rcases balanced.flat_or_block with
        ⟨noOpen, noClose⟩ | ⟨before, inside, after, rfl, noOpen, insideBalanced,
          afterBalanced⟩
      · have blank : ∀ c ∈ first, isBlank c = true :=
          fun _ => ends.isBlank_of_mem noClose
        rw [scan_of_uncut (cut?_of_flat noOpen), List.nil_append,
          scan_blank_append noOpen blank]
      · have sameText (rest : List Char) :
            before ++ '\x7b' :: (inside ++ '\x7d' :: rest) =
              before ++ '\x7b' :: (inside ++ ['\x7d']) ++ rest := by
          simp
        have afterEnds : EndsBehindBlock after := by
          rw [sameText] at ends
          exact ends.of_append
        have shorter : after.length < length := by
          simp only [← size, List.length_append, List.length_cons]
          omega
        have longer :
            before ++ '\x7b' :: (inside ++ '\x7d' :: after) ++ second =
              before ++ '\x7b' :: (inside ++ '\x7d' :: (after ++ second)) := by
          rw [sameText after, List.append_assoc, ← sameText]
        have samePlace :
            place.after (before ++ '\x7b' :: (inside ++ '\x7d' :: after)) =
              (place.after (before ++ '\x7b' :: (inside ++ ['\x7d']))).after
                after := by
          rw [sameText after, Place.after_append place _ after]
        rw [longer, scan_block noOpen insideBalanced,
          scan_block noOpen insideBalanced,
          inductionHypothesis _ shorter _ afterBalanced afterEnds rfl,
          List.append_assoc, samePlace]

/--
What may stand in front of a block whose inside is scanned as if
it stood outside.
-/
structure IsTransparentHeading (heading : List Char) : Prop where
  plain : ∀ c ∈ heading, c ≠ '\x7b' ∧ c ≠ '\x7d' ∧ c ≠ ';'
  noComment : ¬ ['/', '*'] <:+: heading
  isRule : ['@'] <+: heading
  noTheme : ¬ "@theme".toList <+: heading
  noDarkMedia : isDarkMedia (trimChars heading) = false

/-- A transparent heading is one without the blanks around it. -/
theorem IsTransparentHeading.isTransparent_trimChars
    {heading : List Char}
    (transparent : IsTransparentHeading heading) :
    isTransparent (trimChars heading) = true := by
  obtain ⟨rest, rfl⟩ := transparent.isRule
  have isMark : isBlank '@' = false := by decide
  have frontKept : skipBlank (['@'] ++ rest) = ['@'] ++ rest :=
    List.dropWhile_cons_of_neg (by simp [isMark])
  have isFront : trimChars (['@'] ++ rest) <+: ['@'] ++ rest := by
    rw [trimChars, frontKept, trimEndWhile_eq_rdropWhile]
    exact List.rdropWhile_prefix _ _
  have isRule : ['@'] <+: trimChars (['@'] ++ rest) := by
    cases isTrimmed : trimChars (['@'] ++ rest) with
    | nil =>
        rw [trimChars, frontKept, trimEndWhile_eq_rdropWhile,
          List.rdropWhile_eq_nil_iff]
          at isTrimmed
        have isBlankMark := isTrimmed '@' (List.mem_cons_self ..)
        rw [isMark] at isBlankMark
        cases isBlankMark
    | cons c tail =>
        rw [isTrimmed] at isFront
        obtain ⟨rfl, _⟩ := List.cons_prefix_cons.mp isFront
        exact List.cons_prefix_cons.mpr ⟨rfl, List.nil_prefix⟩
  have noTheme : ¬ "@theme".toList <+: trimChars (['@'] ++ rest) :=
    fun isTheme => transparent.noTheme (isTheme.trans isFront)
  rw [isTransparent, startsWith, startsWith, List.isPrefixOf_iff_prefix.mpr isRule,
    Bool.true_and, Bool.not_eq_true', ← Bool.not_eq_true,
    List.isPrefixOf_iff_prefix]
  exact noTheme

/-- Comments are taken out inside a block as they are outside. -/
theorem blankComments_block
    {heading : List Char}
    (noComment : ¬ ['/', '*'] <:+: heading)
    {inner : List Char}
    (closed : commentsClosed inner = true) :
    blankComments (heading ++ '\x7b' :: (inner ++ ['\x7d'])) =
        heading ++ '\x7b' :: (blankComments inner ++ ['\x7d']) ∧
      commentsClosed (heading ++ '\x7b' :: (inner ++ ['\x7d'])) = true := by
  obtain ⟨headingKept, headingClosed⟩ := blankComments_of_no_mark noComment
  have headingApart : Apart heading ('\x7b' :: (inner ++ ['\x7d'])) :=
    fun _ => by simp
  have innerApart : Apart inner ['\x7d'] := fun _ => by simp
  have noMark : ¬ ['/', '*'] <+: '\x7b' :: (inner ++ ['\x7d']) := by
    intro opens
    cases (List.cons_prefix_cons.mp opens).1
  have noBraceMark : ¬ ['/', '*'] <:+: ['\x7d'] := by decide
  have braceKept := blankComments_of_no_mark noBraceMark
  obtain ⟨taken, takenClosed⟩ := blankComments_append headingClosed headingApart
  obtain ⟨innerTaken, innerClosed⟩ := blankComments_append closed innerApart
  rw [blankComments_cons noMark, innerTaken, headingKept, braceKept.1] at taken
  rw [commentsClosed_cons noMark, innerClosed, braceKept.2] at takenClosed
  exact ⟨taken, takenClosed⟩

/--
A style sheet whose blocks and comments are closed when comments
have been taken out.
-/
structure WellClosed (css : List Char) : Prop where
  comments : commentsClosed css = true
  blocks : Balanced (blankComments css)

/-- A block with a flat heading keeps blocks and comments closed. -/
theorem WellClosed.block
    {heading : List Char}
    (transparent : IsTransparentHeading heading)
    {inner : List Char}
    (closed : WellClosed inner) :
    WellClosed (heading ++ '\x7b' :: (inner ++ ['\x7d'])) := by
  obtain ⟨taken, takenClosed⟩ :=
    blankComments_block transparent.noComment closed.comments
  refine ⟨takenClosed, ?_⟩
  rw [taken]
  apply Balanced.block
  · exact fun isThere => (transparent.plain _ isThere).1 rfl
  · exact fun isThere => (transparent.plain _ isThere).2.1 rfl
  · exact closed.blocks
  · exact balanced_iff_closes.mpr (closes_nil_iff.mpr rfl)

/--
A style sheet in a transparent block gives its declarations behind the heading.
-/
theorem extract_block
    (kinds : Kinds)
    {heading inner : String}
    (transparent : IsTransparentHeading heading.toList)
    (closed : WellClosed inner.toList) :
    extract kinds (heading ++ "\x7b" ++ inner ++ "\x7d") =
      behind (heading.toList ++ ['\x7b']) (extract kinds inner) := by
  have shape :
      (heading ++ "\x7b" ++ inner ++ "\x7d").toList =
        heading.toList ++ '\x7b' :: (inner.toList ++ ['\x7d']) := by
    simp
  have noOpen : '\x7b' ∉ heading.toList :=
    fun isThere => (transparent.plain _ isThere).1 rfl
  have isHeading : headingOf heading.toList = trimChars heading.toList :=
    headingOf_of_plain fun c isThere =>
      ⟨(transparent.plain c isThere).2.2, (transparent.plain c isThere).2.1⟩
  have nothingBehind : cut? [] = none := rfl
  rw [extract, shape, (blankComments_block transparent.noComment closed.comments).1,
    scan_block noOpen closed.blocks, scan_of_uncut nothingBehind, List.append_nil,
    isHeading, scanBlock, if_pos transparent.isTransparent_trimChars,
    transparent.noDarkMedia, scan_start_after]
  rfl

/-- A style sheet inside blocks, the outermost heading first. -/
def wrap (headings : List String) (css : String) : String :=
  headings.foldr (fun heading inner => heading ++ "\x7b" ++ inner ++ "\x7d") css

/-- The text in front of a style sheet inside blocks. -/
def openings (headings : List String) : List Char :=
  headings.flatMap (fun heading => heading.toList ++ ['\x7b'])

/--
A style sheet inside transparent blocks gives its declarations
behind the headings.
-/
theorem extract_wrap
    (kinds : Kinds)
    {headings : List String}
    (transparent : ∀ heading ∈ headings, IsTransparentHeading heading.toList)
    {css : String}
    (closed : WellClosed css.toList) :
    WellClosed (wrap headings css).toList ∧
      extract kinds (wrap headings css) =
        behind (openings headings) (extract kinds css) := by
  induction headings with
  | nil => exact ⟨closed, (behind_nil _).symm⟩
  | cons heading outer inductionHypothesis =>
      obtain ⟨headingTransparent, outerTransparent⟩ :=
        List.forall_mem_cons.mp transparent
      obtain ⟨innerClosed, innerFound⟩ := inductionHypothesis outerTransparent
      have shape :
          (wrap (heading :: outer) css).toList =
            heading.toList ++ '\x7b' :: ((wrap outer css).toList ++ ['\x7d']) := by
        simp [wrap]
      constructor
      · rw [shape]
        exact innerClosed.block headingTransparent
      · calc extract kinds (wrap (heading :: outer) css)
          _ =
            behind (heading.toList ++ ['\x7b']) (extract kinds (wrap outer css)) :=
            extract_block kinds headingTransparent innerClosed
          _ = behind (openings (heading :: outer)) (extract kinds css) := by
            rw [innerFound, ← behind_append]
            rfl

/-- A text that ends behind a block does not end with a slash. -/
theorem EndsBehindBlock.getLast?_ne_slash
    {chars : List Char}
    (ends : EndsBehindBlock chars) :
    chars.getLast? ≠ some '/' := by
  intro isLast
  obtain ⟨front, rfl⟩ := List.getLast?_eq_some_iff.mp isLast
  have isMark : lastMark? (front ++ ['/']) = some '/' := by
    rw [lastMark?, List.reverse_concat]
    exact List.find?_cons_of_pos (by decide)
  rw [EndsBehindBlock, isMark] at ends
  simp at ends

/-- A style sheet that ends behind its last block is followed by another one. -/
theorem extract_append
    (kinds : Kinds)
    {first : String}
    (closed : WellClosed first.toList)
    (ends : EndsBehindBlock (blankComments first.toList))
    (second : String) :
    extract kinds (first ++ second) =
      extract kinds first ++
        behind (blankComments first.toList) (extract kinds second) := by
  have apart : Apart first.toList second.toList :=
    fun isLast => (ends.getLast?_ne_slash isLast).elim
  rw [extract, String.toList_append, (blankComments_append closed.comments apart).1,
    scan_append kinds false Place.start closed.blocks ends, scan_start_after]
  rfl

/--
The declarations of a style sheet whose comments and blocks are closed and which
ends behind a block are followed by those of whatever stands behind it, moved by
the text and the lines in front; and a style sheet whose comments and blocks are
closed gives inside transparent blocks, at any depth, what it gives alone, moved
by the headings.
-/
theorem extract_composes
    (kinds : Kinds) :
    (∀ first second : String,
      WellClosed first.toList →
        EndsBehindBlock (blankComments first.toList) →
          extract kinds (first ++ second) =
            extract kinds first ++
              (extract kinds second).map
                (Declaration.shifted (blankComments first.toList).length
                  (first.toList.count '\n'))) ∧
    (∀ (headings : List String) (inner : String),
      (∀ heading ∈ headings, IsTransparentHeading heading.toList) →
        WellClosed inner.toList →
          extract kinds (wrap headings inner) =
            (extract kinds inner).map
              (Declaration.shifted (openings headings).length
                ((openings headings).count '\n'))) := by
  constructor
  · intro first second closed ends
    rw [extract_append kinds closed ends, behind, count_blankComments]
  · intro headings inner transparent closed
    exact (extract_wrap kinds transparent closed).2

/-- A comment with a brace, and a block. -/
def commented : String :=
  "/* \x7b\n */ :root \x7b --a: 1; \x7d"

/-- A block for the dark scheme. -/
def darkened : String :=
  ".dark \x7b --b: 2 \x7d"

/--
The brace in the comment does not count, and the dark block is found
inside two others.
-/
theorem extract_commented_wrap :
    WellClosed commented.toList ∧
      EndsBehindBlock (blankComments commented.toList) ∧
      WellClosed darkened.toList ∧
      (∀ heading ∈ ["@layer base ", "@supports (display: grid)\n"],
        IsTransparentHeading heading.toList) ∧
      (extract Kinds.all
          (commented ++ wrap ["@layer base ", "@supports (display: grid)\n"]
            darkened)).map
          (fun found =>
            (found.name, found.value, found.place.line, found.context)) =
        [("a", "1", 2, Context.root), ("b", "2", 3, Context.darkClass)] := by
  have closed : WellClosed commented.toList :=
    ⟨by decide +kernel, by decide +kernel⟩
  have ends : EndsBehindBlock (blankComments commented.toList) := by decide +kernel
  have darkClosed : WellClosed darkened.toList :=
    ⟨by decide +kernel, by decide +kernel⟩
  have plain {heading : String}
      (isPlain : heading.toList.all
        (fun c => c != '\x7b' && (c != '\x7d' && c != ';')) = true) :
            ∀ c ∈ heading.toList, c ≠ '\x7b' ∧ c ≠ '\x7d' ∧ c ≠ ';' := by
    intro c isThere
    simpa using List.all_eq_true.mp isPlain c isThere
  have transparent : ∀ heading ∈ ["@layer base ", "@supports (display: grid)\n"],
      IsTransparentHeading heading.toList := by
    intro heading isHeading
    rcases List.mem_pair.mp isHeading with rfl | rfl
    · exact ⟨plain (by decide), by decide, by decide, by decide, by decide +kernel⟩
    · exact ⟨plain (by decide), by decide, by decide, by decide, by decide +kernel⟩
  refine ⟨closed, ends, darkClosed, transparent, ?_⟩
  rw [(extract_composes Kinds.all).1 _ _ closed ends,
    (extract_composes Kinds.all).2 _ _ transparent darkClosed]
  decide +kernel

end DesignTokens.Stylesheet
