import DesignTokens.Source.Stylesheet.Extraction
import Mathlib.Data.List.Infix
import Mathlib.Data.List.TakeWhile

namespace DesignTokens.Stylesheet

/-!
# Balanced blocks

In a balanced text the brace that closes a block is found inside the text, so
the cut at its first block is decided there and does not depend on what stands
behind.
-/

/--
Behind so many open blocks, a text closes all of them and every
block of its own.
-/
structure Closes (depth : Nat) (chars : List Char) : Prop where
  prefixes : ∀ front, front <+: chars →
    front.count '\x7d' ≤ front.count '\x7b' + depth
  whole : chars.count '\x7d' = chars.count '\x7b' + depth

/--
No beginning of a text closes more blocks than it opens, and the
whole text as many.
-/
structure Balanced (chars : List Char) : Prop where
  prefixes : ∀ front, front <+: chars → front.count '\x7d' ≤ front.count '\x7b'
  whole : chars.count '\x7d' = chars.count '\x7b'

instance (chars : List Char) : Decidable (Balanced chars) :=
  decidable_of_iff
    ((∀ front ∈ chars.inits, front.count '\x7d' ≤ front.count '\x7b') ∧
      chars.count '\x7d' = chars.count '\x7b')
    ⟨fun holds =>
      ⟨fun front isFront => holds.1 front ((List.mem_inits _ _).mpr isFront),
        holds.2⟩,
      fun balanced =>
        ⟨fun front isFront =>
          balanced.prefixes front ((List.mem_inits _ _).mp isFront),
          balanced.whole⟩⟩

theorem balanced_iff_closes
    {chars : List Char} :
    Balanced chars ↔ Closes 0 chars :=
  ⟨fun balanced => ⟨balanced.prefixes, balanced.whole⟩,
    fun closes => ⟨closes.prefixes, closes.whole⟩⟩

@[simp] theorem closes_nil_iff
    {depth : Nat} :
    Closes depth [] ↔ depth = 0 := by
  constructor
  · intro closes
    have whole := closes.whole
    simpa [eq_comm] using whole
  · rintro rfl
    exact ⟨fun front isFront => by simp [List.prefix_nil.mp isFront], rfl⟩

/-- What a text closes can be told from its first character and from the rest. -/
theorem closes_cons_iff
    {depth inner : Nat}
    {c : Char}
    {rest : List Char}
    (moves : [c].count '\x7d' + inner = [c].count '\x7b' + depth) :
    Closes depth (c :: rest) ↔ Closes inner rest := by
  have countCons (wanted : Char) (chars : List Char) :
      (c :: chars).count wanted = [c].count wanted + chars.count wanted := by
    rw [← List.singleton_append, List.count_append]
  constructor
  · intro closes
    constructor
    · intro front isFront
      have bound :=
        closes.prefixes (c :: front) (List.cons_prefix_cons.mpr ⟨rfl, isFront⟩)
      rw [countCons _ front, countCons _ front] at bound
      omega
    · have whole := closes.whole
      rw [countCons _ rest, countCons _ rest] at whole
      omega
  · intro closes
    constructor
    · intro front isFront
      rcases List.prefix_cons_iff.mp isFront with rfl | ⟨tail, rfl, isTail⟩
      · simp
      · have bound := closes.prefixes tail isTail
        rw [countCons _ tail, countCons _ tail]
        omega
    · have whole := closes.whole
      rw [countCons _ rest, countCons _ rest]
      omega

@[simp] theorem closes_open_iff
    {depth : Nat}
    {rest : List Char} :
    Closes depth ('\x7b' :: rest) ↔ Closes (depth + 1) rest := by
  apply closes_cons_iff
  simp [Nat.add_comm]

@[simp] theorem closes_close_iff
    {depth : Nat}
    {rest : List Char} :
    Closes (depth + 1) ('\x7d' :: rest) ↔ Closes depth rest := by
  apply closes_cons_iff
  simp [Nat.add_comm]

@[simp] theorem not_closes_close
    (rest : List Char) :
    ¬ Closes 0 ('\x7d' :: rest) := by
  intro closes
  have bound :=
    closes.prefixes ['\x7d'] (List.cons_prefix_cons.mpr ⟨rfl, List.nil_prefix⟩)
  simp at bound

theorem closes_other_iff
    {depth : Nat}
    {c : Char}
    {rest : List Char}
    (isNoOpen : c ≠ '\x7b')
    (isNoClose : c ≠ '\x7d') :
    Closes depth (c :: rest) ↔ Closes depth rest := by
  apply closes_cons_iff
  simp [isNoOpen, isNoClose]

/-- Text without braces in front changes nothing. -/
theorem closes_flat_append_iff
    {depth : Nat}
    {front rest : List Char}
    (noOpen : '\x7b' ∉ front)
    (noClose : '\x7d' ∉ front) :
    Closes depth (front ++ rest) ↔ Closes depth rest := by
  induction front with
  | nil => rfl
  | cons c tail inductionHypothesis =>
      have isNoOpen : c ≠ '\x7b' := fun same => noOpen (by simp [same])
      have isNoClose : c ≠ '\x7d' := fun same => noClose (by simp [same])
      rw [List.cons_append, closes_other_iff isNoOpen isNoClose]
      apply inductionHypothesis
      · exact fun isThere => noOpen (List.mem_cons_of_mem c isThere)
      · exact fun isThere => noClose (List.mem_cons_of_mem c isThere)

/-- A text without braces is balanced. -/
theorem balanced_of_flat
    {chars : List Char}
    (noOpen : '\x7b' ∉ chars)
    (noClose : '\x7d' ∉ chars) :
    Balanced chars := by
  have closes : Closes 0 (chars ++ []) :=
    (closes_flat_append_iff noOpen noClose).mpr (closes_nil_iff.mpr rfl)
  rw [balanced_iff_closes]
  simpa using closes

/--
A text that closes blocks is read character by character, with the
blocks that are open.
-/
theorem Closes.induction
    {motive : (depth : Nat) → (chars : List Char) → Closes depth chars → Prop}
    (done : ∀ closes, motive 0 [] closes)
    (opened : ∀ depth rest (restCloses : Closes (depth + 1) rest),
      motive (depth + 1) rest restCloses →
        ∀ closes, motive depth ('\x7b' :: rest) closes)
    (closed : ∀ depth rest (restCloses : Closes depth rest),
      motive depth rest restCloses →
        ∀ closes, motive (depth + 1) ('\x7d' :: rest) closes)
    (other : ∀ depth c rest (restCloses : Closes depth rest),
      c ≠ '\x7b' → c ≠ '\x7d' → motive depth rest restCloses →
        ∀ closes, motive depth (c :: rest) closes)
    {depth : Nat}
    {chars : List Char}
    (closes : Closes depth chars) :
    motive depth chars closes := by
  induction chars generalizing depth with
  | nil =>
      obtain rfl := closes_nil_iff.mp closes
      exact done closes
  | cons c rest inductionHypothesis =>
      by_cases isOpen : c = '\x7b'
      · subst isOpen
        have restCloses := closes_open_iff.mp closes
        exact opened depth rest restCloses (inductionHypothesis restCloses) closes
      · by_cases isClose : c = '\x7d'
        · subst isClose
          cases depth with
          | zero => exact (not_closes_close rest closes).elim
          | succ outer =>
              have restCloses := closes_close_iff.mp closes
              exact closed outer rest restCloses
                (inductionHypothesis restCloses) closes
        · have restCloses := (closes_other_iff isOpen isClose).mp closes
          exact other depth c rest restCloses isOpen isClose
            (inductionHypothesis restCloses) closes

/--
What closes one more block has a brace that does so, between two
texts that need not.
-/
theorem Closes.exists_close
    {depth : Nat}
    {chars : List Char}
    (closes : Closes (depth + 1) chars) :
    ∃ inside after,
      chars = inside ++ '\x7d' :: after ∧ Closes depth inside ∧ Closes 0 after := by
  generalize isTotal : depth + 1 = total at closes
  induction closes using Closes.induction generalizing depth with
  | done => cases isTotal
  | opened total rest _ inductionHypothesis =>
      obtain ⟨inside, after, rfl, insideCloses, afterCloses⟩ :=
        inductionHypothesis (congrArg Nat.succ isTotal)
      exact ⟨'\x7b' :: inside, after, rfl, closes_open_iff.mpr insideCloses,
        afterCloses⟩
  | closed total rest restCloses inductionHypothesis =>
      obtain rfl := Nat.succ.inj isTotal
      -- This is the brace when no inner block is open; otherwise it closes an inner
      -- one.
      cases depth with
      | zero => exact ⟨[], rest, rfl, closes_nil_iff.mpr rfl, restCloses⟩
      | succ outer =>
          obtain ⟨inside, after, rfl, insideCloses, afterCloses⟩ :=
            inductionHypothesis rfl
          exact ⟨'\x7d' :: inside, after, rfl, closes_close_iff.mpr insideCloses,
            afterCloses⟩
  | other total c rest _ isNoOpen isNoClose inductionHypothesis =>
      obtain ⟨inside, after, rfl, insideCloses, afterCloses⟩ :=
        inductionHypothesis isTotal
      exact ⟨c :: inside, after, rfl,
        (closes_other_iff isNoOpen isNoClose).mpr insideCloses, afterCloses⟩

/-- A brace behind a text closes one more block than the text does. -/
theorem Closes.append_close
    {depth : Nat}
    {inside after : List Char}
    (insideCloses : Closes depth inside)
    (afterCloses : Closes 0 after) :
    Closes (depth + 1) (inside ++ '\x7d' :: after) := by
  induction insideCloses using Closes.induction with
  | done => exact closes_close_iff.mpr afterCloses
  | opened depth rest _ inductionHypothesis =>
      exact closes_open_iff.mpr inductionHypothesis
  | closed depth rest _ inductionHypothesis =>
      exact closes_close_iff.mpr inductionHypothesis
  | other depth c rest _ isNoOpen isNoClose inductionHypothesis =>
      exact (closes_other_iff isNoOpen isNoClose).mpr inductionHypothesis

/-- A block is closed by the brace behind the text that closes everything inside. -/
theorem untilClosed_of_closes
    {depth : Nat}
    {inside : List Char}
    (closes : Closes depth inside)
    (after : List Char) :
    untilClosed depth (inside ++ '\x7d' :: after) = (inside, after) := by
  induction closes using Closes.induction with
  | done => simp [untilClosed]
  | opened depth rest _ inductionHypothesis =>
      simp [untilClosed, inductionHypothesis]
  | closed depth rest _ inductionHypothesis =>
      simp [untilClosed, inductionHypothesis]
  | other depth c rest _ isNoOpen isNoClose inductionHypothesis =>
      simp [untilClosed, isNoOpen, isNoClose, inductionHypothesis]

/-- A balanced text is put in a block by braces around it. -/
theorem Balanced.block
    {before inside after : List Char}
    (noOpen : '\x7b' ∉ before)
    (noClose : '\x7d' ∉ before)
    (insideBalanced : Balanced inside)
    (afterBalanced : Balanced after) :
    Balanced (before ++ '\x7b' :: (inside ++ '\x7d' :: after)) := by
  rw [balanced_iff_closes] at *
  rw [closes_flat_append_iff noOpen noClose, closes_open_iff]
  exact insideBalanced.append_close afterBalanced

/--
A balanced text is flat, or it is a block between a flat text
and a balanced one.
-/
theorem Balanced.flat_or_block
    {chars : List Char}
    (balanced : Balanced chars) :
    ('\x7b' ∉ chars ∧ '\x7d' ∉ chars) ∨
      ∃ before inside after,
        chars = before ++ '\x7b' :: (inside ++ '\x7d' :: after) ∧
          '\x7b' ∉ before ∧ Balanced inside ∧ Balanced after := by
  by_cases opens : '\x7b' ∈ chars
  · right
    obtain ⟨before, rest, rfl, noOpen⟩ := List.eq_append_cons_of_mem opens
    have noClose : '\x7d' ∉ before := by
      have bound := balanced.prefixes before (List.prefix_append _ _)
      rw [List.count_eq_zero.mpr noOpen] at bound
      exact List.count_eq_zero.mp (Nat.le_zero.mp bound)
    have closes := balanced_iff_closes.mp balanced
    rw [closes_flat_append_iff noOpen noClose, closes_open_iff] at closes
    obtain ⟨inside, after, rfl, insideCloses, afterCloses⟩ := closes.exists_close
    exact ⟨before, inside, after, rfl, noOpen, balanced_iff_closes.mpr insideCloses,
      balanced_iff_closes.mpr afterCloses⟩
  · left
    refine ⟨opens, List.count_eq_zero.mp ?_⟩
    rw [balanced.whole, List.count_eq_zero.mpr opens]

/-- A text without a block is not cut. -/
theorem cut?_of_flat
    {chars : List Char}
    (noOpen : '\x7b' ∉ chars) :
    cut? chars = none := by
  have allPassed : chars.dropWhile (· != '\x7b') = [] := by
    rw [List.dropWhile_eq_nil_iff]
    intro c isThere
    simp only [bne_iff_ne]
    rintro rfl
    exact noOpen isThere
  rw [cut?, allPassed]

/-- Text without a block in front belongs to what stands before the first block. -/
theorem cut?_flat_append
    {front : List Char}
    (noOpen : '\x7b' ∉ front)
    (rest : List Char) :
    cut? (front ++ rest) =
      (cut? rest).map
        (fun cut => ⟨front ++ cut.before, cut.inside, cut.after⟩) := by
  have isPassed : ∀ c ∈ front, (c != '\x7b') = true := by
    intro c isThere
    simp only [bne_iff_ne]
    rintro rfl
    exact noOpen isThere
  unfold cut?
  rw [List.dropWhile_append_of_pos isPassed, List.takeWhile_append_of_pos isPassed]
  cases rest.dropWhile (· != '\x7b') <;> rfl

/-- A text is cut at its first block, up to the brace that closes the block. -/
theorem cut?_block
    {before inside : List Char}
    (noOpen : '\x7b' ∉ before)
    (balanced : Balanced inside)
    (after : List Char) :
    cut? (before ++ '\x7b' :: (inside ++ '\x7d' :: after)) =
      some ⟨before, inside, after⟩ := by
  have atBlock :
      cut? ('\x7b' :: (inside ++ '\x7d' :: after)) = some ⟨[], inside, after⟩ := by
    simp [cut?, untilClosed_of_closes (balanced_iff_closes.mp balanced)]
  rw [cut?_flat_append noOpen, atBlock]
  simp

end DesignTokens.Stylesheet
