import DesignTokens.Proofs.Source.Stylesheet.Blocks
import DesignTokens.Proofs.Source.Stylesheet.Names
import DesignTokens.Proofs.Text.Casing

namespace DesignTokens.Stylesheet

/-!
# Blocks around a declaration

Reading a style sheet from left to right gives, at every place, the headings of
the blocks that are open there.  These headings alone decide the kind of a
declaration: it is taken from the outermost block that is not transparent, and a
media query for the dark scheme counts when it stands outside that block.

Below such a media query everything that is taken is dark, theme blocks apart:
they are light wherever they stand.
-/

open DesignTokens.Text

/-- What is open at a place. -/
structure Nesting where
  /-- The text since the last block or statement. -/
  recent : List Char
  /-- The headings of the blocks around the place, the innermost first. -/
  headings : List (List Char)
  deriving DecidableEq

namespace Nesting

/-- The beginning of a style sheet. -/
def outside : Nesting :=
  ⟨[], []⟩

/-- What is open behind one more character. -/
def step (nesting : Nesting) (c : Char) : Nesting :=
  if c = '\x7b' then ⟨[], trimChars nesting.recent :: nesting.headings⟩
  else if c = '\x7d' then ⟨[], nesting.headings.tail⟩
  else if c = ';' then ⟨[], nesting.headings⟩
  else ⟨nesting.recent ++ [c], nesting.headings⟩

/-- What is open behind a text. -/
def run (nesting : Nesting) (chars : List Char) : Nesting :=
  chars.foldl step nesting

/-- The same place with more blocks around it. -/
def within (nesting : Nesting) (outer : List (List Char)) : Nesting :=
  ⟨nesting.recent, nesting.headings ++ outer⟩

theorem run_append
    (nesting : Nesting)
    (first second : List Char) :
    nesting.run (first ++ second) = (nesting.run first).run second :=
  List.foldl_append

theorem run_cons
    (nesting : Nesting)
    (c : Char)
    (rest : List Char) :
    nesting.run (c :: rest) = (nesting.step c).run rest :=
  rfl

theorem step_open
    (nesting : Nesting) :
    nesting.step '\x7b' = ⟨[], trimChars nesting.recent :: nesting.headings⟩ :=
  rfl

theorem step_close
    (nesting : Nesting) :
    nesting.step '\x7d' = ⟨[], nesting.headings.tail⟩ :=
  rfl

theorem headings_step_of_ne
    (nesting : Nesting)
    {c : Char}
    (isNoOpen : c ≠ '\x7b')
    (isNoClose : c ≠ '\x7d') :
    (nesting.step c).headings = nesting.headings := by
  unfold step
  rw [if_neg isNoOpen, if_neg isNoClose]
  split
  · rfl
  · rfl

theorem within_step
    (nesting : Nesting)
    (outer : List (List Char))
    {c : Char}
    (isHeld : c = '\x7d' → nesting.headings ≠ []) :
    (nesting.within outer).step c = (nesting.step c).within outer := by
  unfold step within
  split
  · rfl
  · split
    · rename_i isClose
      rw [List.tail_append_of_ne_nil (isHeld isClose)]
    · split
      · rfl
      · rfl

theorem run_before
    {before : List Char}
    (noOpen : '\x7b' ∉ before) :
    (outside.run before).headings = [] ∧
      (outside.run before).recent =
        (before.reverse.takeWhile (fun c => c != ';' && c != '\x7d')).reverse := by
  induction before using List.reverseRecOn with
  | nil => exact ⟨rfl, rfl⟩
  | append_singleton front c inductionHypothesis =>
      have isNoOpen : c ≠ '\x7b' := fun same => noOpen (by simp [same])
      have noOpenBefore : '\x7b' ∉ front :=
        fun isThere => noOpen (by simp [isThere])
      obtain ⟨noHeadings, isRecent⟩ := inductionHypothesis noOpenBefore
      rw [run_append, List.reverse_concat]
      change ((outside.run front).step c).headings = [] ∧
        ((outside.run front).step c).recent = _
      unfold step
      rw [if_neg isNoOpen, noHeadings]
      by_cases isClose : c = '\x7d'
      · simp [isClose]
      · by_cases isEnd : c = ';'
        · simp [isEnd]
        · simp [isClose, isEnd, isRecent]

theorem run_open
    {before : List Char}
    (noOpen : '\x7b' ∉ before)
    (rest : List Char) :
    outside.run (before ++ '\x7b' :: rest) =
      (outside.within [headingOf before]).run rest := by
  obtain ⟨noHeadings, isRecent⟩ := run_before noOpen
  rw [run_append, run_cons, step_open, noHeadings, isRecent]
  rfl

/-- Inside the open blocks, a text does the same with more headings around it. -/
theorem within_run
    {depth : Nat}
    {rest front : List Char}
    (isFront : front <+: (untilClosed depth rest).1)
    {nesting : Nesting}
    (isDepth : depth ≤ nesting.headings.length)
    (outer : List (List Char)) :
    (nesting.within outer).run front = (nesting.run front).within outer := by
  induction rest generalizing depth front nesting with
  | nil =>
      obtain rfl := List.prefix_nil.mp isFront
      rfl
  | cons c rest inductionHypothesis =>
      unfold untilClosed at isFront
      cases front with
      | nil => rfl
      | cons first tail =>
          split at isFront
          · rename_i isOpen
            obtain ⟨rfl, isTail⟩ := List.cons_prefix_cons.mp isFront
            subst isOpen
            rw [run_cons, run_cons, within_step _ _ (by simp)]
            apply inductionHypothesis isTail
            simpa [step_open] using isDepth
          · split at isFront
            · rename_i isClose
              subst isClose
              cases depth with
              | zero => cases List.prefix_nil.mp isFront
              | succ depth =>
                  obtain ⟨rfl, isTail⟩ := List.cons_prefix_cons.mp isFront
                  -- At least as many blocks are open as the depth counts, so there
                  -- is one to close.
                  have isHeld : nesting.headings ≠ [] := by
                    rintro isEmpty
                    simp [isEmpty] at isDepth
                  rw [run_cons, run_cons, within_step _ _ (fun _ => isHeld)]
                  apply inductionHypothesis isTail
                  rw [step_close, List.length_tail]
                  omega
            · rename_i isNoOpen isNoClose
              obtain ⟨rfl, isTail⟩ := List.cons_prefix_cons.mp isFront
              rw [run_cons, run_cons,
                within_step _ _ (fun isClose => (isNoClose isClose).elim)]
              apply inductionHypothesis isTail
              rwa [headings_step_of_ne nesting isNoOpen isNoClose]

theorem headings_run_inside
    {before rest front : List Char}
    (noOpen : '\x7b' ∉ before)
    (isFront : front <+: (untilClosed 0 rest).1) :
    (outside.run (before ++ '\x7b' :: front)).headings =
      (outside.run front).headings ++ [headingOf before] := by
  rw [run_open noOpen, within_run isFront (Nat.zero_le _)]
  rfl

/-- A text that closes blocks takes their headings away. -/
theorem headings_run_of_closes
    {depth : Nat}
    {chars : List Char}
    (closes : Closes depth chars)
    (nesting : Nesting) :
    (nesting.run chars).headings = nesting.headings.drop depth := by
  induction closes using Closes.induction generalizing nesting with
  | done => rfl
  | opened depth rest _ inductionHypothesis =>
      rw [run_cons, inductionHypothesis, step_open, List.drop_succ_cons]
  | closed depth rest _ inductionHypothesis =>
      rw [run_cons, inductionHypothesis, step_close, List.drop_tail]
  | other depth c rest _ isNoOpen isNoClose inductionHypothesis =>
      rw [run_cons, inductionHypothesis,
        headings_step_of_ne nesting isNoOpen isNoClose]

/--
Behind the brace that closes a block, what is open is what was
open in front of it.
-/
theorem run_block
    {before inside : List Char}
    (noOpen : '\x7b' ∉ before)
    (closes : Closes 0 inside)
    (rest : List Char) :
    outside.run (before ++ '\x7b' :: (inside ++ '\x7d' :: rest)) =
      outside.run rest := by
  rw [run_open noOpen, run_append, run_cons, step_close,
    headings_run_of_closes closes]
  rfl

end Nesting

/--
A text in which a block is closed is cut there; otherwise the block
reaches to its end.
-/
theorem untilClosed_cases
    (depth : Nat)
    (rest : List Char) :
    (∃ inside after,
      untilClosed depth rest = (inside, after) ∧
        rest = inside ++ '\x7d' :: after ∧ Closes depth inside) ∨
      untilClosed depth rest = (rest, []) := by
  induction rest generalizing depth with
  | nil => exact .inr rfl
  | cons c rest inductionHypothesis =>
      unfold untilClosed
      split
      · rename_i isOpen
        subst isOpen
        rcases inductionHypothesis (depth + 1) with
          ⟨inside, after, isCut, shape, closes⟩ | isWhole
        · left
          refine ⟨'\x7b' :: inside, after, by rw [isCut],
            by rw [shape, List.cons_append], ?_⟩
          exact closes_open_iff.mpr closes
        · right
          rw [isWhole]
      · rename_i isNoOpen
        split
        · rename_i isClose
          subst isClose
          cases depth with
          | zero => exact .inl ⟨[], rest, rfl, rfl, closes_nil_iff.mpr rfl⟩
          | succ depth =>
              rcases inductionHypothesis depth with
                ⟨inside, after, isCut, shape, closes⟩ | isWhole
              · left
                refine ⟨'\x7d' :: inside, after, by simp [isCut],
                  by rw [shape, List.cons_append], ?_⟩
                exact closes_close_iff.mpr closes
              · right
                simp [isWhole]
        · rename_i isNoClose
          rcases inductionHypothesis depth with
            ⟨inside, after, isCut, shape, closes⟩ | isWhole
          · left
            refine ⟨c :: inside, after, by rw [isCut],
              by rw [shape, List.cons_append], ?_⟩
            exact (closes_other_iff isNoOpen isNoClose).mpr closes
          · right
            rw [isWhole]

theorem prefix_untilClosed
    (depth : Nat)
    (rest : List Char) :
    (untilClosed depth rest).1 <+: rest := by
  rcases untilClosed_cases depth rest with
    ⟨inside, after, isCut, shape, _⟩ | isWhole
  · rw [isCut, shape]
    exact List.prefix_append _ _
  · rw [isWhole]

theorem shape_of_cut?
    {region : List Char}
    {cut : Cut}
    (isCut : cut? region = some cut) :
    ∃ rest, region = cut.before ++ '\x7b' :: rest ∧ '\x7b' ∉ cut.before ∧
      untilClosed 0 rest = (cut.inside, cut.after) := by
  unfold cut? at isCut
  split at isCut
  · rename_i brace rest remaining
    obtain rfl := Option.some.inj isCut
    have isOpen : brace = '\x7b' := by
      have isStop := List.head?_dropWhile_not (· != '\x7b') region
      rw [remaining] at isStop
      simpa using isStop
    rw [isOpen] at remaining
    refine ⟨rest, ?_, ?_, rfl⟩
    · rw [← remaining]
      exact List.takeWhile_append_dropWhile.symm
    · intro isThere
      simpa using List.mem_takeWhile_imp isThere
  · cases isCut

/--
The headings of the blocks around a declaration that give it its kind: those of
transparent blocks, then that of the block it is taken from, then any others.
-/
inductive TakenFrom (kinds : Kinds) (inDarkMedia : Bool) (context : Context) :
    List (List Char) → Prop where
  | intro
      (inner : List (List Char))
      (heading : List Char)
      (outer : List (List Char))
      (transparent : ∀ other ∈ outer, isTransparent other = true)
      (notTransparent : isTransparent heading = false)
      (isKind : classify kinds (inDarkMedia || outer.any isDarkMedia) heading =
        some context) :
      TakenFrom kinds inDarkMedia context (inner ++ heading :: outer)

/--
A transparent block around others only tells whether they are for
the dark scheme.
-/
theorem TakenFrom.within
    {kinds : Kinds}
    {inDarkMedia : Bool}
    {context : Context}
    {headings : List (List Char)}
    {heading : List Char}
    (isOutside : isTransparent heading = true)
    (taken :
      TakenFrom kinds (inDarkMedia || isDarkMedia heading) context headings) :
    TakenFrom kinds inDarkMedia context (headings ++ [heading]) := by
  obtain ⟨inner, taken, outer, transparent, notTransparent, isKind⟩ := taken
  rw [List.append_assoc, List.cons_append]
  apply TakenFrom.intro
  · intro other isOther
    rcases List.mem_append.mp isOther with isInner | isHeading
    · exact transparent other isInner
    · rw [List.mem_singleton.mp isHeading]
      exact isOutside
  · exact notTransparent
  · rw [List.any_append, List.any_cons, List.any_nil, Bool.or_false,
      Bool.or_comm (outer.any _), ← Bool.or_assoc]
    exact isKind

theorem exists_front_of_mem_declarations
    {context : Context}
    {place : Place}
    {body : List Char}
    {declaration : Declaration}
    (isDeclared : declaration ∈ declarations context place body) :
    ∃ front, front <+: body ∧
      declaration.place.offset = place.offset + front.length ∧
      declaration.context = context := by
  obtain ⟨found, isFound, rfl⟩ := List.mem_map.mp isDeclared
  obtain ⟨previous, rest, isScanned, shape⟩ :=
    exists_place_of_mem_findAllFrom suffix_of_scanDeclaration? isFound
  refine ⟨found.before ++ ['-', '-'], ?_, rfl, rfl⟩
  rw [List.reverse_nil, List.nil_append] at shape
  rw [shape]
  exact (List.prefix_append_right_inj _).mpr (prefix_of_scanDeclaration? isScanned)

/--
A place inside the first block of a region stands below the
heading of that block.
-/
theorem exists_front_inside
    {region front : List Char}
    {cut : Cut}
    (isCut : cut? region = some cut)
    (isFront : front <+: cut.inside)
    (place : Place) :
    ∃ whole, whole <+: region ∧
      (place.after (cut.before ++ ['\x7b'])).offset + front.length =
        place.offset + whole.length ∧
      (Nesting.outside.run whole).headings =
        (Nesting.outside.run front).headings ++ [headingOf cut.before] := by
  obtain ⟨rest, rfl, noOpen, isClosed⟩ := shape_of_cut? isCut
  have isInside : front <+: (untilClosed 0 rest).1 := by
    rw [isClosed]
    exact isFront
  refine ⟨cut.before ++ '\x7b' :: front, ?_, ?_,
    Nesting.headings_run_inside noOpen isInside⟩
  · apply (List.prefix_append_right_inj _).mpr
    exact List.cons_prefix_cons.mpr
      ⟨rfl, isInside.trans (prefix_untilClosed 0 rest)⟩
  · simp [Place.after]
    omega

/--
A place behind the first block of a region stands in the blocks
that are open there.
-/
theorem exists_front_behind
    {region front : List Char}
    {cut : Cut}
    (isCut : cut? region = some cut)
    (isThere : cut.after ≠ [])
    (isFront : front <+: cut.after)
    (place : Place) :
    ∃ whole, whole <+: region ∧
      ((place.after (cut.before ++ ['\x7b'])).after
        (cut.inside ++ ['\x7d'])).offset +
          front.length =
        place.offset + whole.length ∧
      (Nesting.outside.run whole).headings =
        (Nesting.outside.run front).headings := by
  obtain ⟨rest, rfl, noOpen, isClosed⟩ := shape_of_cut? isCut
  rcases untilClosed_cases 0 rest with
    ⟨inside, after, isCutThere, shape, closes⟩ | isWhole
  · obtain ⟨rfl, rfl⟩ := Prod.mk.inj (isClosed.symm.trans isCutThere)
    refine ⟨cut.before ++ '\x7b' :: (cut.inside ++ '\x7d' :: front), ?_, ?_, ?_⟩
    · rw [shape]
      apply (List.prefix_append_right_inj _).mpr
      apply List.cons_prefix_cons.mpr
      refine ⟨rfl, (List.prefix_append_right_inj _).mpr ?_⟩
      exact List.cons_prefix_cons.mpr ⟨rfl, isFront⟩
    · simp [Place.after]
      omega
    · rw [Nesting.run_block noOpen closes]
  · -- The block is not closed, so nothing stands behind it.
    exact (isThere (Prod.mk.inj (isClosed.symm.trans isWhole)).2).elim

/--
What is taken from a region is taken from the blocks that are open at its place.
-/
theorem takenFrom_of_mem_scan
    {kinds : Kinds}
    {inDarkMedia : Bool}
    {place : Place}
    {region : List Char}
    {declaration : Declaration}
    (isScanned : declaration ∈ scan kinds inDarkMedia place region) :
    ∃ front, front <+: region ∧
      declaration.place.offset = place.offset + front.length ∧
      TakenFrom kinds inDarkMedia declaration.context
        (Nesting.outside.run front).headings := by
  induction region using cut_induction generalizing inDarkMedia place with
  | uncut region isUncut =>
      rw [scan_of_uncut isUncut] at isScanned
      cases isScanned
  | cut region cut isCut ofInside ofAfter =>
      rw [scan_of_cut isCut, List.mem_append] at isScanned
      rcases isScanned with inBlock | isBehind
      · rcases cases_of_mem_scanBlock inBlock with
          ⟨isOutside, isInside⟩ | ⟨isNotOutside, context, isKind, isDeclared⟩
        · obtain ⟨front, isFront, isPlace, taken⟩ := ofInside isInside
          obtain ⟨whole, isPrefix, isMoved, sameHeadings⟩ :=
            exists_front_inside isCut isFront place
          refine ⟨whole, isPrefix, isPlace.trans isMoved, ?_⟩
          rw [sameHeadings]
          exact taken.within isOutside
        · obtain ⟨front, isFront, isPlace, rfl⟩ :=
            exists_front_of_mem_declarations isDeclared
          obtain ⟨whole, isPrefix, isMoved, sameHeadings⟩ :=
            exists_front_inside isCut isFront place
          refine ⟨whole, isPrefix, isPlace.trans isMoved, ?_⟩
          rw [sameHeadings]
          -- No block stands around this one; those inside it are not looked at.
          apply TakenFrom.intro
          · simp
          · exact isNotOutside
          · simpa using isKind
      · have isThere : cut.after ≠ [] := by
          intro isNothing
          rw [isNothing, scan_of_uncut rfl] at isBehind
          cases isBehind
        obtain ⟨front, isFront, isPlace, taken⟩ := ofAfter isBehind
        obtain ⟨whole, isPrefix, isMoved, sameHeadings⟩ :=
          exists_front_behind isCut isThere isFront place
        refine ⟨whole, isPrefix, isPlace.trans isMoved, ?_⟩
        rw [sameHeadings]
        exact taken

/-- The headings of the blocks around a place of a text, the innermost first. -/
def headingsAt (css : List Char) (place : Place) : List (List Char) :=
  (Nesting.outside.run (css.take place.offset)).headings

/--
What is extracted is taken from the blocks around it in the text
without comments.
-/
theorem takenFrom_of_mem_extract
    {kinds : Kinds}
    {css : String}
    {declaration : Declaration}
    (isExtracted : declaration ∈ extract kinds css) :
    TakenFrom kinds false declaration.context
      (headingsAt (blankComments css.toList) declaration.place) := by
  obtain ⟨front, isFront, isPlace, taken⟩ := takenFrom_of_mem_scan isExtracted
  have isOffset : declaration.place.offset = front.length := by
    simpa [Place.start] using isPlace
  rw [headingsAt, isOffset, ← List.prefix_iff_eq_take.mp isFront]
  exact taken

theorem isTransparent_of_isDarkMedia
    {heading : List Char}
    (isMedia : isDarkMedia heading = true) :
    isTransparent heading = true := by
  obtain ⟨isMediaRule, _⟩ := Bool.and_eq_true_iff.mp isMedia
  have isStart : "@media".toList <+: lowerChars heading :=
    List.isPrefixOf_iff_prefix.mp isMediaRule
  have isAt : heading.head? = some '@' := by
    apply head?_eq_at_of_lowerChars
    obtain ⟨more, shape⟩ := isStart
    rw [← shape]
    rfl
  have isRule : ['@'] <+: heading := by
    obtain ⟨rest, rfl⟩ := List.head?_eq_some_iff.mp isAt
    exact List.prefix_append ['@'] rest
  -- Lowercasing keeps the t of a theme block, where a media query has an m.
  have noTheme : ¬ "@theme".toList <+: heading := by
    rintro ⟨more, rfl⟩
    have settled : IsSettled '@' ∧ IsSettled 't' := by decide
    change "@media".toList <+: lowerFrom [] ('@' :: 't' :: _) at isStart
    rw [lowerFrom, settled.1.lowerInContext_eq, lowerFrom,
      settled.2.lowerInContext_eq] at isStart
    have isMark := (List.cons_prefix_cons.mp (List.cons_prefix_cons.mp isStart).2).1
    cases isMark
  rw [isTransparent, startsWith, startsWith, List.isPrefixOf_iff_prefix.mpr isRule,
    Bool.true_and, Bool.not_eq_true', ← Bool.not_eq_true,
    List.isPrefixOf_iff_prefix]
  exact noTheme

/--
Inside a media query for the dark scheme, only theme blocks are kinds
of light blocks.
-/
theorem isDark_of_classify
    {kinds : Kinds}
    {heading : List Char}
    {context : Context}
    (isKind : classify kinds true heading = some context) :
    context.isDark = true ∨ context = .theme := by
  have given
      {wanted : Bool}
      {kind : Context}
      (isGiven : (if wanted then some kind else none) = some context) :
      kind = context := by
    cases wanted with
    | false => cases isGiven
    | true => exact Option.some.inj isGiven
  unfold classify at isKind
  simp only [if_true] at isKind
  split at isKind
  · exact .inr (given isKind).symm
  · left
    split at isKind
    · rw [← given isKind]
      rfl
    · split at isKind
      · rw [← given isKind]
        rfl
      · split at isKind
        · rw [← given isKind]
          rfl
        · cases isKind

/-- Of two different members of a list, one stands behind the other. -/
theorem mem_behind_or_mem_behind
    {α : Type}
    {before before' behind behind' : List α}
    {one other : α}
    (different : one ≠ other)
    (same : before ++ one :: behind = before' ++ other :: behind') :
    one ∈ behind' ∨ other ∈ behind := by
  induction before generalizing before' with
  | nil =>
      cases before' with
      | nil => exact (different (List.cons.inj same).1).elim
      | cons first rest =>
          obtain ⟨_, rfl⟩ := List.cons.inj same
          exact .inr (by simp)
  | cons first rest inductionHypothesis =>
      cases before' with
      | nil =>
          obtain ⟨_, rfl⟩ := List.cons.inj same
          exact .inl (by simp)
      | cons first' rest' => exact inductionHypothesis (List.cons.inj same).2

/--
A declaration inside a media query for the dark scheme is dark, unless it is taken
from a theme block, or from a block that stands around the media query.
-/
theorem isDark_of_mem_darkMedia
    {kinds : Kinds}
    {css : String}
    {declaration : Declaration}
    (isExtracted : declaration ∈ extract kinds css)
    {inner outer : List (List Char)}
    {media : List Char}
    (isAround : headingsAt (blankComments css.toList) declaration.place =
      inner ++ media :: outer)
    (isMedia : isDarkMedia media = true) :
    declaration.context.isDark = true ∨ declaration.context = .theme ∨
      ∃ heading ∈ outer, isTransparent heading = false := by
  have taken := takenFrom_of_mem_extract isExtracted
  rw [isAround] at taken
  generalize isThere : inner ++ media :: outer = headings at taken
  obtain ⟨within, heading, beyond, _, notTransparent, isKind⟩ := taken
  have different : media ≠ heading := by
    rintro rfl
    cases notTransparent.symm.trans (isTransparent_of_isDarkMedia isMedia)
  rcases mem_behind_or_mem_behind different isThere with
    mediaBeyond | headingOutside
  · have isAny : beyond.any isDarkMedia = true :=
      List.any_eq_true.mpr ⟨media, mediaBeyond, isMedia⟩
    rw [isAny] at isKind
    rcases isDark_of_classify isKind with isDark | isTheme
    · exact .inl isDark
    · exact .inr (.inl isTheme)
  · exact .inr (.inr ⟨heading, headingOutside, notTransparent⟩)

/-- A root inside a layer inside a media query for the dark scheme. -/
def layered : String :=
  "@media (prefers-color-scheme: dark) \x7b @layer base \x7b " ++
    ":root \x7b --a: 1px \x7d \x7d \x7d"

/--
The layer between the media query and the root does not make the
declaration light.
-/
theorem extract_layered_isDark :
    ∃ declaration ∈ extract Kinds.all layered,
      headingsAt (blankComments layered.toList) declaration.place =
          [":root".toList, "@layer base".toList] ++
            "@media (prefers-color-scheme: dark)".toList :: [] ∧
        isDarkMedia "@media (prefers-color-scheme: dark)".toList = true ∧
        declaration.context.isDark = true := by
  have shown :
      (extract Kinds.all layered).map (fun found =>
          (headingsAt (blankComments layered.toList) found.place,
            found.context == .theme)) =
        [([":root".toList, "@layer base".toList] ++
          ["@media (prefers-color-scheme: dark)".toList], false)] := by
    decide +kernel
  have isMedia : isDarkMedia "@media (prefers-color-scheme: dark)".toList =
      true := by
    decide +kernel
  obtain ⟨declaration, isOnly, isPair⟩ := List.map_eq_singleton_iff.mp shown
  obtain ⟨isAround, noTheme⟩ := Prod.mk.inj isPair
  have isExtracted : declaration ∈ extract Kinds.all layered := by
    rw [isOnly]
    exact List.mem_singleton_self _
  refine ⟨declaration, isExtracted, isAround, isMedia, ?_⟩
  rcases isDark_of_mem_darkMedia isExtracted isAround isMedia with
    isDark | isTheme | ⟨heading, isOutside, _⟩
  · exact isDark
  · exact (beq_eq_false_iff_ne.mp noTheme isTheme).elim
  · cases isOutside

/--
A theme block inside a media query for the dark scheme is light, and so is a root
around such a media query.
-/
theorem extract_light_in_darkMedia :
    isDarkMedia "@media (prefers-color-scheme: dark)".toList = true ∧
      (let css :=
        "@media (prefers-color-scheme: dark) \x7b @theme \x7b --a: 1px \x7d \x7d"
      (extract Kinds.all css).map (fun found =>
          (found.name, headingsAt (blankComments css.toList) found.place,
            found.context.isDark)) =
        [("a", ["@theme".toList, "@media (prefers-color-scheme: dark)".toList],
          false)]) ∧
      (let css :=
        ":root \x7b @media (prefers-color-scheme: dark) \x7b --a: 1px; \x7d \x7d"
      (extract Kinds.all css).map (fun found =>
          (found.name, headingsAt (blankComments css.toList) found.place,
            found.context.isDark)) =
        [("a", ["@media (prefers-color-scheme: dark)".toList, ":root".toList],
          false)]) := by
  decide +kernel

end DesignTokens.Stylesheet
