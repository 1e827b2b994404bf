import DesignTokens.Source.Stylesheet.Extraction
import Mathlib.Data.List.Infix

namespace DesignTokens.Stylesheet

/-!
# Closed comments

Comments are taken out from left to right.  When every comment of a text is
closed, only a slash at its very end can have to do with what stands behind it,
and all line ends stay whether comments are closed or not.
-/

/-- Whether every comment that opens in a text is closed in it. -/
def commentsClosed (chars : List Char) : Bool :=
  match chars with
  | [] => true
  | '/' :: '*' :: rest =>
      match _isClosed : closeComment? rest with
      | some found => commentsClosed found.2
      | none => false
  | _ :: rest => commentsClosed rest
termination_by chars.length
decreasing_by
  · have shorter := length_closeComment? _isClosed
    simp only [List.length_cons]
    omega
  · simp

/--
A closed comment is the text before its mark, the mark, and the text after it.
-/
theorem eq_append_of_closeComment?
    {chars : List Char}
    {found : List Char × List Char}
    (isClosed : closeComment? chars = some found) :
    chars = found.1 ++ '*' :: '/' :: found.2 := by
  fun_induction closeComment? chars generalizing found with
  | case1 => cases isClosed
  | case2 rest =>
      cases isClosed
      rfl
  | case3 c rest _ inductionHypothesis =>
      obtain ⟨inner, isInner, rfl⟩ := Option.map_eq_some_iff.mp isClosed
      rw [List.cons_append, ← inductionHypothesis isInner]

/-- A closed comment is closed at the same place when more text follows. -/
theorem closeComment?_append
    {chars : List Char}
    {found : List Char × List Char}
    (isClosed : closeComment? chars = some found)
    (more : List Char) :
    closeComment? (chars ++ more) = some (found.1, found.2 ++ more) := by
  fun_induction closeComment? chars generalizing found with
  | case1 => cases isClosed
  | case2 rest =>
      cases isClosed
      rfl
  | case3 c rest noMark inductionHypothesis =>
      obtain ⟨inner, isInner, rfl⟩ := Option.map_eq_some_iff.mp isClosed
      have closedBehind := inductionHypothesis isInner
      cases rest with
      | nil => cases isInner
      | cons next tail =>
          have noMarkBehind (behind : List Char) :
              c = '*' → next :: (tail ++ more) = '/' :: behind → False := by
            rintro rfl same
            obtain ⟨rfl, _⟩ := List.cons.inj same
            exact noMark tail rfl rfl
          rw [List.cons_append, List.cons_append, closeComment?, ← List.cons_append,
            closedBehind]
          · rfl
          · exact noMarkBehind

/-- A comment gives way to its line ends. -/
theorem blankComments_comment
    {rest : List Char}
    {found : List Char × List Char}
    (isClosed : closeComment? rest = some found) :
    blankComments ('/' :: '*' :: rest) =
      lineEnds found.1 ++ blankComments found.2 := by
  rw [blankComments]
  split
  · rename_i other isOther
    obtain rfl := Option.some.inj (isClosed.symm.trans isOther)
    rfl
  · rename_i isOpen
    cases isClosed.symm.trans isOpen

/-- A character that opens no comment stays. -/
theorem blankComments_cons
    {c : Char}
    {rest : List Char}
    (noComment : ¬ ['/', '*'] <+: c :: rest) :
    blankComments (c :: rest) = c :: blankComments rest := by
  rw [blankComments]
  rintro inner rfl rfl
  exact noComment ⟨inner, rfl⟩

theorem commentsClosed_comment
    {rest : List Char}
    {found : List Char × List Char}
    (isClosed : closeComment? rest = some found) :
    commentsClosed ('/' :: '*' :: rest) = commentsClosed found.2 := by
  rw [commentsClosed]
  split
  · rename_i other isOther
    obtain rfl := Option.some.inj (isClosed.symm.trans isOther)
    rfl
  · rename_i isOpen
    cases isClosed.symm.trans isOpen

theorem commentsClosed_cons
    {c : Char}
    {rest : List Char}
    (noComment : ¬ ['/', '*'] <+: c :: rest) :
    commentsClosed (c :: rest) = commentsClosed rest := by
  rw [commentsClosed]
  rintro inner rfl rfl
  exact noComment ⟨inner, rfl⟩

/--
A comment that opens in two texts together and not in the first one
opens between them.
-/
theorem between_of_opens
    {c : Char}
    {rest second : List Char}
    (noComment : ¬ ['/', '*'] <+: c :: rest)
    (opens : ['/', '*'] <+: c :: (rest ++ second)) :
    c = '/' ∧ rest = [] ∧ second.head? = some '*' := by
  obtain ⟨isSlash, continues⟩ := List.cons_prefix_cons.mp opens
  cases rest with
  | nil =>
      obtain ⟨tail, rfl⟩ := continues
      exact ⟨isSlash.symm, rfl, rfl⟩
  | cons next tail =>
      obtain ⟨isStar, _⟩ := List.cons_prefix_cons.mp continues
      have starts : ['*'] <+: next :: tail :=
        List.cons_prefix_cons.mpr ⟨isStar, List.nil_prefix⟩
      exact (noComment (List.cons_prefix_cons.mpr ⟨isSlash, starts⟩)).elim

/-- No comment opens between two texts. -/
def Apart (first second : List Char) : Prop :=
  (blankComments first).getLast? = some '/' → second.head? ≠ some '*'

/-- Comments of a text are taken out as if nothing stood behind it. -/
theorem blankComments_append
    {first second : List Char}
    (closed : commentsClosed first = true)
    (apart : Apart first second) :
    blankComments (first ++ second) = blankComments first ++ blankComments second ∧
      commentsClosed (first ++ second) = commentsClosed second := by
  fun_induction commentsClosed first with
  | case1 => simp [blankComments]
  | case2 rest found isClosed inductionHypothesis =>
      have closedBehind := closeComment?_append isClosed second
      have taken := blankComments_comment isClosed
      have apartBehind : Apart found.2 second := by
        intro isLast
        apply apart
        rw [taken, List.getLast?_append, isLast]
        rfl
      obtain ⟨restTaken, restClosed⟩ := inductionHypothesis closed apartBehind
      rw [List.cons_append, List.cons_append, blankComments_comment closedBehind,
        commentsClosed_comment closedBehind, taken, restTaken, restClosed,
        List.append_assoc]
      exact ⟨rfl, rfl⟩
  | case3 => cases closed
  | case4 c rest noMark inductionHypothesis =>
      have noComment : ¬ ['/', '*'] <+: c :: rest := by
        rintro ⟨inner, shape⟩
        obtain ⟨rfl, rfl⟩ := List.cons.inj shape
        exact noMark inner rfl rfl
      have taken := blankComments_cons noComment
      have apartBehind : Apart rest second := by
        intro isLast
        apply apart
        rw [taken, List.getLast?_cons, isLast]
        rfl
      have noCommentBehind : ¬ ['/', '*'] <+: c :: (rest ++ second) := by
        intro opens
        obtain ⟨rfl, rfl, starts⟩ := between_of_opens noComment opens
        exact apart (by simp [taken, blankComments]) starts
      obtain ⟨restTaken, restClosed⟩ := inductionHypothesis closed apartBehind
      rw [List.cons_append, blankComments_cons noCommentBehind,
        commentsClosed_cons noCommentBehind, taken, restTaken, restClosed]
      exact ⟨rfl, rfl⟩

/-- In a text without the mark of a comment nothing is taken out. -/
theorem blankComments_of_no_mark
    {chars : List Char}
    (noMark : ¬ ['/', '*'] <:+: chars) :
    blankComments chars = chars ∧ commentsClosed chars = true := by
  induction chars with
  | nil => simp [blankComments, commentsClosed]
  | cons c rest inductionHypothesis =>
      have noComment : ¬ ['/', '*'] <+: c :: rest :=
        fun opens => noMark opens.isInfix
      have restPlain : ¬ ['/', '*'] <:+: rest :=
        fun inside => noMark (List.infix_cons inside)
      obtain ⟨restTaken, restClosed⟩ := inductionHypothesis restPlain
      rw [blankComments_cons noComment, commentsClosed_cons noComment, restTaken]
      exact ⟨rfl, restClosed⟩

/-- No line end is lost with a comment. -/
theorem count_blankComments
    (chars : List Char) :
    (blankComments chars).count '\n' = chars.count '\n' := by
  fun_induction blankComments chars with
  | case1 => rfl
  | case2 rest found isClosed inductionHypothesis =>
      have ends : (lineEnds found.1).count '\n' = found.1.count '\n' := by
        simp [lineEnds, List.count_filter]
      rw [List.count_append, inductionHypothesis, ends,
        eq_append_of_closeComment? isClosed]
      simp
  | case3 => rfl
  | case4 c rest _ inductionHypothesis =>
      simp [List.count_cons, inductionHypothesis]

end DesignTokens.Stylesheet
