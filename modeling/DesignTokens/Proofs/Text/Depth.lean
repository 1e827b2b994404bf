import DesignTokens.Proofs.Text.Blank
import DesignTokens.Proofs.Text.Search

namespace DesignTokens.Text

/-!
# Commas outside parentheses

A text is cut at the commas at depth zero.  Texts that are whole, without such a
comma and back at depth zero at their end, can be joined with commas and are
found again as the pieces.

The pieces of any text give the text back when they are joined.  In a text that
closes no parenthesis before it is opened, it does not matter whether stray
closing ones are ignored, and every comma left in a piece stands inside
parentheses.
-/

/-- No comma stands at depth zero in a text that begins at the given depth. -/
def Uncut (next : Int → Char → Int) (depth : Int) : List Char → Prop
  | [] => True
  | c :: rest => ¬ (c = ',' ∧ depth = 0) ∧ Uncut next (next depth c) rest

/-- A text is not cut, and the depth is zero behind it as in front of it. -/
structure Whole (next : Int → Char → Int) (chars : List Char) : Prop where
  uncut : Uncut next 0 chars
  balanced : chars.foldl next 0 = 0

section Splitting

variable {next : Int → Char → Int} {depth : Int}

theorem Uncut.append
    {first second : List Char}
    (firstUncut : Uncut next depth first)
    (secondUncut : Uncut next (first.foldl next depth) second) :
    Uncut next depth (first ++ second) := by
  induction first generalizing depth with
  | nil => exact secondUncut
  | cons c first inductionHypothesis =>
      exact ⟨firstUncut.1, inductionHypothesis firstUncut.2 secondUncut⟩

/-- Without commas at depth zero there is one piece. -/
theorem splitAtDepthZero_of_uncut
    {chars : List Char}
    (uncut : Uncut next depth chars) :
    splitAtDepthZero next depth chars = [chars] := by
  induction chars generalizing depth with
  | nil => rfl
  | cons c rest inductionHypothesis =>
      rw [splitAtDepthZero, if_neg uncut.1, inductionHypothesis uncut.2]

/-- A text is cut behind a piece that ends at depth zero. -/
theorem splitAtDepthZero_append
    {piece : List Char}
    (uncut : Uncut next depth piece)
    (balanced : piece.foldl next depth = 0)
    (rest : List Char) :
    splitAtDepthZero next depth (piece ++ ',' :: rest) =
      piece :: splitAtDepthZero next 0 rest := by
  induction piece generalizing depth with
  | nil =>
      obtain rfl : depth = 0 := balanced
      rw [List.nil_append, splitAtDepthZero, if_pos ⟨rfl, rfl⟩]
  | cons c piece inductionHypothesis =>
      rw [List.cons_append, splitAtDepthZero, if_neg uncut.1,
        inductionHypothesis uncut.2 balanced]

/-- Whole texts with commas and blanks between them are cut into these texts. -/
theorem splitAtDepthZero_join
    {first : List Char}
    {rest : List (List Char)}
    (keepsBlank : next 0 ' ' = 0)
    (firstWhole : Whole next first)
    (restWhole : ∀ piece ∈ rest, Whole next piece) :
    splitAtDepthZero next 0
      (first ++ rest.flatMap (fun piece => ',' :: ' ' :: piece)) =
      first :: rest.map (fun piece => ' ' :: piece) := by
  induction rest generalizing first with
  | nil =>
      rw [List.flatMap_nil, List.append_nil, List.map_nil,
        splitAtDepthZero_of_uncut firstWhole.uncut]
  | cons second rest inductionHypothesis =>
      obtain ⟨secondWhole, othersWhole⟩ := List.forall_mem_cons.mp restWhole
      have spacedWhole : Whole next (' ' :: second) := by
        constructor
        · refine ⟨by simp, ?_⟩
          rw [keepsBlank]
          exact secondWhole.uncut
        · rw [List.foldl_cons, keepsBlank]
          exact secondWhole.balanced
      have isForm :
          first ++ (second :: rest).flatMap (fun piece => ',' :: ' ' :: piece) =
            first ++ ',' ::
              (' ' :: second ++
                rest.flatMap (fun piece => ',' :: ' ' :: piece)) := by
        simp
      rw [isForm, splitAtDepthZero_append firstWhole.uncut firstWhole.balanced,
        inductionHypothesis spacedWhole othersWhole]
      rfl

/-- Joining the pieces of a text gives the text back. -/
theorem intercalate_splitAtDepthZero
    (next : Int → Char → Int)
    (depth : Int)
    (chars : List Char) :
    [','].intercalate (splitAtDepthZero next depth chars) = chars := by
  induction chars generalizing depth with
  | nil => simp [splitAtDepthZero]
  | cons c rest inductionHypothesis =>
      by_cases isCut : c = ',' ∧ depth = 0
      · obtain ⟨piece, pieces, isSplit⟩ :=
          List.exists_cons_of_ne_nil (splitAtDepthZero_ne_nil next depth rest)
        have restJoined := inductionHypothesis depth
        rw [isSplit] at restJoined
        rw [splitAtDepthZero, if_pos isCut, isSplit, List.intercalate_cons_cons,
          restJoined, isCut.1]
        rfl
      · obtain ⟨piece, pieces, isSplit, isForm⟩ :=
          exists_splitAtDepthZero_cons next isCut rest
        have restJoined := inductionHypothesis (next depth c)
        rw [isSplit] at restJoined
        rw [isForm, ← restJoined]
        cases pieces with
        | nil => simp
        | cons second others => simp [List.intercalate_cons_cons]

end Splitting

/-! Texts that close no parenthesis before it is opened. -/

/-- The depth never falls below zero in a text that begins at the given depth. -/
def NeverBelow (depth : Int) (chars : List Char) : Prop :=
  ∀ front, front <+: chars → 0 ≤ front.foldl depthAfter depth

/--
Every comma of a piece that begins at the given depth stands inside parentheses.
-/
def CommasInside (depth : Int) (piece : List Char) : Prop :=
  ∀ front behind, piece = front ++ ',' :: behind → 0 < front.foldl depthAfter depth

/--
Pieces of a text that begins at the given depth, cut at every comma
outside parentheses.
-/
inductive Cuts : Int → List (List Char) → Prop where
  | last
      {depth : Int}
      {piece : List Char} :
      CommasInside depth piece →
      Cuts depth [piece]
  | more
      {depth : Int}
      {piece : List Char}
      {pieces : List (List Char)} :
      CommasInside depth piece →
      piece.foldl depthAfter depth = 0 →
      Cuts 0 pieces →
      Cuts depth (piece :: pieces)

section Balance

variable {depth : Int} {chars : List Char}

/--
The depth behind a text is the number of parentheses that were
opened and not closed.
-/
theorem foldl_depthAfter
    (depth : Int)
    (chars : List Char) :
    chars.foldl depthAfter depth = depth + chars.count '(' - chars.count ')' := by
  induction chars generalizing depth with
  | nil => simp
  | cons c rest inductionHypothesis =>
      rw [List.foldl_cons, inductionHypothesis, depthAfter, List.count_cons,
        List.count_cons]
      by_cases isOpen : c = '('
      · subst isOpen
        simp
        omega
      · by_cases isClose : c = ')'
        · subst isClose
          simp
          omega
        · simp [isOpen, isClose]

theorem NeverBelow.depth_nonneg
    (neverBelow : NeverBelow depth chars) :
    0 ≤ depth :=
  neverBelow [] List.nil_prefix

theorem NeverBelow.rest
    {c : Char}
    (neverBelow : NeverBelow depth (c :: chars)) :
    NeverBelow (depthAfter depth c) chars :=
  fun front isFront =>
    neverBelow (c :: front) (List.cons_prefix_cons.mpr ⟨rfl, isFront⟩)

/--
Where the depth stays at zero or above, ignoring stray closing parentheses
changes nothing.
-/
theorem splitAtDepthZero_clamped
    (neverBelow : NeverBelow depth chars) :
    splitAtDepthZero clampedDepthAfter depth chars =
      splitAtDepthZero depthAfter depth chars := by
  induction chars generalizing depth with
  | nil => rfl
  | cons c rest inductionHypothesis =>
      have sameDepth : clampedDepthAfter depth c = depthAfter depth c := by
        have stays := neverBelow.rest.depth_nonneg
        unfold depthAfter at stays
        unfold clampedDepthAfter depthAfter
        split_ifs at stays ⊢
        · rfl
        · exact Int.max_eq_right stays
        · rfl
      rw [splitAtDepthZero, splitAtDepthZero, sameDepth,
        inductionHypothesis neverBelow.rest]
      split
      · rename_i isCut
        obtain ⟨rfl, rfl⟩ := isCut
        exact congrArg ([] :: ·) (inductionHypothesis neverBelow.rest)
      · rfl

/-- One more character in front leaves the commas of a piece inside parentheses. -/
theorem CommasInside.cons
    {c : Char}
    {piece : List Char}
    (restInside : CommasInside (depthAfter depth c) piece)
    (isInside : c = ',' → 0 < depth) :
    CommasInside depth (c :: piece) := by
  intro front behind shape
  cases front with
  | nil => exact isInside (List.cons.inj shape).1
  | cons first front =>
      obtain ⟨rfl, isRest⟩ := List.cons.inj shape
      exact restInside front behind isRest

/-- Splitting cuts a text at every comma outside parentheses. -/
theorem cuts_splitAtDepthZero
    (neverBelow : NeverBelow depth chars) :
    Cuts depth (splitAtDepthZero depthAfter depth chars) := by
  have noComma (depth : Int) : CommasInside depth [] := by
    intro front behind shape
    simp at shape
  induction chars generalizing depth with
  | nil => exact .last (noComma depth)
  | cons c rest inductionHypothesis =>
      have restCuts := inductionHypothesis neverBelow.rest
      by_cases isCut : c = ',' ∧ depth = 0
      · obtain ⟨rfl, rfl⟩ := isCut
        rw [splitAtDepthZero, if_pos ⟨rfl, rfl⟩]
        exact .more (noComma 0) rfl restCuts
      · obtain ⟨piece, pieces, isSplit, isForm⟩ :=
            exists_splitAtDepthZero_cons depthAfter isCut rest
        have isInside : c = ',' → 0 < depth := fun isComma =>
          Int.lt_iff_le_and_ne.mpr
            ⟨neverBelow.depth_nonneg, fun isZero => isCut ⟨isComma, isZero.symm⟩⟩
        rw [isSplit] at restCuts
        rw [isForm]
        cases restCuts with
        | last inside => exact .last (inside.cons isInside)
        | more inside closes others =>
            exact .more (inside.cons isInside) closes others

/--
In all pieces the commas stand inside parentheses, and all but the last
close what they open.
-/
theorem Cuts.of_mem
    {pieces : List (List Char)}
    (cuts : Cuts 0 pieces) :
    (∀ piece ∈ pieces, CommasInside 0 piece) ∧
      ∀ piece ∈ pieces.dropLast, piece.foldl depthAfter 0 = 0 := by
  generalize isDepth : (0 : Int) = depth at cuts
  induction cuts with
  | last inside =>
      subst isDepth
      exact ⟨by simpa using inside, by simp⟩
  | @more depth piece pieces inside closes others inductionHypothesis =>
      subst isDepth
      obtain ⟨othersInside, othersClose⟩ := inductionHypothesis rfl
      refine ⟨List.forall_mem_cons.mpr ⟨inside, othersInside⟩, ?_⟩
      cases pieces with
      | nil => cases others
      | cons second rest =>
          rw [List.dropLast_cons_cons]
          exact List.forall_mem_cons.mpr ⟨closes, othersClose⟩

end Balance

/-! Texts inside parentheses. -/

/-- A text that is not cut inside parentheses, and does not change the depth. -/
structure Inner (chars : List Char) : Prop where
  uncut : ∀ depth, 0 < depth → Uncut depthAfter depth chars
  balanced : ∀ depth, chars.foldl depthAfter depth = depth

/-- A text without parentheses. -/
structure Flat (chars : List Char) : Prop where
  noOpen : '(' ∉ chars
  noClose : ')' ∉ chars

section Parentheses

variable {chars first second : List Char}

theorem Flat.depthAfter_eq
    {c : Char}
    {rest : List Char}
    (flat : Flat (c :: rest))
    (depth : Int) :
    depthAfter depth c = depth ∧ Flat rest := by
  obtain ⟨noOpen, restOpen⟩ := not_or.mp (List.mem_cons.not.mp flat.noOpen)
  obtain ⟨noClose, restClose⟩ := not_or.mp (List.mem_cons.not.mp flat.noClose)
  rw [depthAfter, if_neg (Ne.symm noOpen), if_neg (Ne.symm noClose)]
  exact ⟨rfl, restOpen, restClose⟩

theorem Flat.balanced
    (flat : Flat chars)
    (depth : Int) :
    chars.foldl depthAfter depth = depth := by
  induction chars with
  | nil => rfl
  | cons c rest inductionHypothesis =>
      obtain ⟨sameDepth, restFlat⟩ := flat.depthAfter_eq depth
      rw [List.foldl_cons, sameDepth, inductionHypothesis restFlat]

/-- A text without parentheses is cut at its commas at depth zero only. -/
theorem Flat.uncut
    (flat : Flat chars)
    {depth : Int}
    (noCut : depth = 0 → ',' ∉ chars) :
    Uncut depthAfter depth chars := by
  induction chars with
  | nil => trivial
  | cons c rest inductionHypothesis =>
      obtain ⟨sameDepth, restFlat⟩ := flat.depthAfter_eq depth
      constructor
      · rintro ⟨rfl, isOutside⟩
        exact noCut isOutside List.mem_cons_self
      · rw [sameDepth]
        exact inductionHypothesis restFlat
          (fun isOutside => List.not_mem_of_not_mem_cons (noCut isOutside))

theorem Flat.inner
    (flat : Flat chars) :
    Inner chars :=
  ⟨fun _ isInside =>
    flat.uncut (fun isOutside => absurd isOutside (Int.ne_of_gt isInside)),
    flat.balanced⟩

theorem Inner.append
    (firstInner : Inner first)
    (secondInner : Inner second) :
    Inner (first ++ second) := by
  constructor
  · intro depth isInside
    refine (firstInner.uncut depth isInside).append ?_
    rw [firstInner.balanced]
    exact secondInner.uncut depth isInside
  · intro depth
    rw [List.foldl_append, firstInner.balanced, secondInner.balanced]

/-- A closing parenthesis undoes an opening one. -/
theorem Inner.balanced_parenthesized
    (inner : Inner chars)
    (depth : Int) :
    ('(' :: (chars ++ [')'])).foldl depthAfter depth = depth := by
  have opened : depthAfter depth '(' = depth + 1 := rfl
  have closed : depthAfter (depth + 1) ')' = depth := by
    simp [depthAfter]
  rw [List.foldl_cons, opened, List.foldl_append, inner.balanced,
    List.foldl_cons, closed]
  rfl

/-- Between parentheses a text is not cut. -/
theorem Inner.uncut_parenthesized
    (inner : Inner chars)
    {depth : Int}
    (isThere : 0 ≤ depth) :
    Uncut depthAfter depth ('(' :: (chars ++ [')'])) := by
  have opened : depthAfter depth '(' = depth + 1 := rfl
  refine ⟨fun isCut => absurd isCut.1 (by decide), ?_⟩
  rw [opened]
  exact (inner.uncut (depth + 1) (by omega)).append
    ⟨fun isCut => absurd isCut.1 (by decide), trivial⟩

/-- A text in parentheses is not cut inside of others. -/
theorem Inner.parenthesized
    (inner : Inner chars) :
    Inner ('(' :: (chars ++ [')'])) :=
  ⟨fun _ isInside => inner.uncut_parenthesized (Int.le_of_lt isInside),
    inner.balanced_parenthesized⟩

/-- A name with a text in parentheses behind it is whole. -/
theorem Inner.whole
    {name : List Char}
    (nameFlat : Flat name)
    (noComma : ',' ∉ name)
    (inner : Inner chars) :
    Whole depthAfter (name ++ '(' :: (chars ++ [')'])) := by
  constructor
  · refine (nameFlat.uncut (fun _ => noComma)).append ?_
    rw [nameFlat.balanced]
    exact inner.uncut_parenthesized (Int.le_refl 0)
  · rw [List.foldl_append, nameFlat.balanced]
    exact inner.balanced_parenthesized 0

end Parentheses

end DesignTokens.Text
