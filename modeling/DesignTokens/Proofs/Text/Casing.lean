import DesignTokens.Proofs.Text.Blank
import DesignTokens.Text.Casing
import Mathlib.Data.List.SplitBy

namespace DesignTokens.Text

/-!
# Lowercase texts

Lowercasing leaves nothing to be lowercased, and no character becomes blank by
it.  Both are facts about the table of capitals: the lowercase form of no
capital is a capital of the table, and none is blank.
-/

namespace CaseRun

/-- The lowercase form of a capital of the run, as a code point. -/
def image (run : CaseRun) (code : Nat) : Nat :=
  (Int.ofNat code + run.shift).toNat

/-- The lowercase forms of the capitals of the run. -/
def images (run : CaseRun) : List Nat :=
  (List.range' run.first ((run.last - run.first) / run.step + 1) run.step).map
    run.image

theorem image_mem_images
    {run : CaseRun}
    {code : Nat}
    (isCapital : run.holds code = true) :
    run.image code ∈ run.images := by
  refine List.mem_map_of_mem ?_
  rw [List.mem_range']
  obtain ⟨inRange, onStep⟩ := Bool.and_eq_true_iff.mp isCapital
  obtain ⟨isAfter, isBefore⟩ := of_decide_eq_true inRange
  have divides : run.step ∣ code - run.first := by
    exact Nat.dvd_of_mod_eq_zero (by simpa using onStep)
  refine ⟨(code - run.first) / run.step, ?_, ?_⟩
  · have smaller :
        (code - run.first) / run.step ≤ (run.last - run.first) / run.step :=
      Nat.div_le_div_right (by omega)
    omega
  · rw [Nat.mul_div_cancel' divides]
    omega

/--
Whether no lowercase form of one run is a capital of another;
most runs lie apart.
-/
def avoids (run other : CaseRun) : Bool :=
  Nat.blt (run.image run.last) other.first ||
    Nat.blt other.last (run.image run.first) ||
    run.images.all (fun code =>
      Nat.blt code other.first || Nat.blt other.last code ||
        !((code - other.first) % other.step == 0))

/-- The lowercase forms of a run keep its order. -/
theorem image_bounds
    {run : CaseRun}
    {code : Nat}
    (isCapital : run.holds code = true) :
    run.image run.first ≤ run.image code ∧ run.image code ≤ run.image run.last := by
  have inRange := of_decide_eq_true (Bool.and_eq_true_iff.mp isCapital).1
  simp only [image, Int.ofNat_eq_natCast]
  omega

/--
A run that avoids another has no lowercase form among the capitals of the other.
-/
theorem holds_image_eq_false
    {run other : CaseRun}
    (avoided : run.avoids other = true)
    {code : Nat}
    (isCapital : run.holds code = true) :
    other.holds (run.image code) = false := by
  have bounds := image_bounds isCapital
  simp only [avoids, Bool.or_eq_true, Nat.blt_eq, List.all_eq_true] at avoided
  simp only [holds, Bool.and_eq_false_iff, decide_eq_false_iff_not]
  rcases avoided with (liesBefore | liesAfter) | liesBetween
  · exact .inl (by omega)
  · exact .inl (by omega)
  · rcases liesBetween _ (image_mem_images isCapital) with
      (isBelow | isAbove) | offStep
    · exact .inl (by omega)
    · exact .inl (by omega)
    · exact .inr (by simpa using offStep)

/-- The first capital of a block of runs. -/
def lowest (block : List CaseRun) : Nat :=
  (block.map first).min?.getD 0

/-- The last capital of a block of runs. -/
def highest (block : List CaseRun) : Nat :=
  (block.map last).max?.getD 0

/-- Whether no lowercase form of a run is a capital of a block of runs. -/
def avoidsBlock (run : CaseRun) (block : List CaseRun) : Bool :=
  Nat.blt (run.image run.last) (lowest block) ||
    Nat.blt (highest block) (run.image run.first) ||
    block.all run.avoids

/-- A run avoids each run of a block that it avoids. -/
theorem avoids_of_avoidsBlock
    {run other : CaseRun}
    {block : List CaseRun}
    (avoided : run.avoidsBlock block = true)
    (isOther : other ∈ block) :
    run.avoids other = true := by
  have isFrom : lowest block ≤ other.first :=
    List.min?_getD_le_of_mem (List.mem_map_of_mem isOther)
  have isUpTo : other.last ≤ highest block :=
    List.le_max?_getD_of_mem (List.mem_map_of_mem isOther)
  simp only [avoidsBlock, Bool.or_eq_true, Nat.blt_eq] at avoided
  simp only [avoids, Bool.or_eq_true, Nat.blt_eq]
  rcases avoided with (liesBefore | liesAfter) | eachAvoided
  · exact .inl (.inl (by omega))
  · exact .inl (.inr (by omega))
  · simpa only [avoids, Bool.or_eq_true, Nat.blt_eq] using
      List.all_eq_true.mp eachAvoided other isOther

end CaseRun

/--
The runs of the table in blocks of 128 code points.  A run lies apart from most
blocks, so it need not be compared with each of their runs.
-/
def caseBlocks : List (List CaseRun) :=
  caseRuns.splitBy (fun run next => run.first / 128 == next.first / 128)

/-- No lowercase form of a capital of the table is a capital of the table. -/
theorem avoids_caseRuns :
    ∀ run ∈ caseRuns, ∀ other ∈ caseRuns, run.avoids other = true := by
  have allAvoided : caseRuns.all (fun run => caseBlocks.all run.avoidsBlock) =
      true := by
    decide +kernel
  have ofBlocks : caseBlocks.flatten = caseRuns := List.flatten_splitBy _ _
  intro run isRun other isOther
  rw [← ofBlocks] at isOther
  obtain ⟨block, isBlock, isMember⟩ := List.mem_flatten.mp isOther
  have eachAvoided := List.all_eq_true.mp allAvoided run isRun
  exact CaseRun.avoids_of_avoidsBlock
    (List.all_eq_true.mp eachAvoided block isBlock) isMember

/--
Whether a code point is neither blank nor one of the capitals
outside of the table.
-/
def isPlainCode (code : Nat) : Bool :=
  (Nat.blt code 0xD800 || Nat.ble 0xE000 code && Nat.blt code 0x110000) &&
    !(Nat.ble 65 code && Nat.ble code 90) && !Nat.beq code 0x130 &&
    !Nat.beq code 0x3A3 &&
    blankRanges.all (fun range => Nat.blt code range.1 || Nat.blt range.2 code)

/-- Whether all code points between two are plain, told by the two alone. -/
def isPlainBetween (low high : Nat) : Bool :=
  (Nat.blt high 0xD800 || Nat.ble 0xE000 low && Nat.blt high 0x110000) &&
    (Nat.blt high 65 || Nat.blt 90 low) &&
    (Nat.blt high 0x130 || Nat.blt 0x130 low) &&
    (Nat.blt high 0x3A3 || Nat.blt 0x3A3 low) &&
    blankRanges.all (fun range => Nat.blt high range.1 || Nat.blt range.2 low)

theorem isPlainCode_of_isPlainBetween
    {low high code : Nat}
    (plain : isPlainBetween low high = true)
    (isFrom : low ≤ code)
    (isUpTo : code ≤ high) :
    isPlainCode code = true := by
  simp only [isPlainBetween, Bool.and_eq_true, Bool.or_eq_true, Nat.blt_eq,
    Nat.ble_eq, List.all_eq_true] at plain
  obtain ⟨⟨⟨⟨valid, noCapital⟩, notDotted⟩, notSigma⟩, noBlank⟩ := plain
  simp only [isPlainCode, Bool.and_eq_true, Bool.or_eq_true, Bool.not_eq_true',
    Nat.blt_eq, Nat.ble_eq, List.all_eq_true, ← Bool.not_eq_true, Nat.beq_eq]
  refine ⟨⟨⟨⟨?_, ?_⟩, ?_⟩, ?_⟩, fun range isRange => ?_⟩
  · omega
  · omega
  · omega
  · omega
  · have liesOutside := noBlank range isRange
    omega

/-- The lowercase form of a capital of the table is plain. -/
theorem isPlainCode_image
    {run : CaseRun}
    (isRun : run ∈ caseRuns)
    {code : Nat}
    (isCapital : run.holds code = true) :
    isPlainCode (run.image code) = true := by
  have eachPlain :
      ∀ run ∈ caseRuns, isPlainBetween (run.image run.first) (run.image run.last) =
        true := by
    decide +kernel
  obtain ⟨isFrom, isUpTo⟩ := run.image_bounds isCapital
  exact isPlainCode_of_isPlainBetween (eachPlain run isRun) isFrom isUpTo

/-- A character that lowercasing leaves as it is, wherever it stands. -/
structure IsSettled (c : Char) : Prop where
  notSigma :
    c ≠ 'Σ'
  notDotted :
    c ≠ 'İ'
  keepsForm :
    lowerChar c = c

theorem isSettled_iff
    {c : Char} :
    IsSettled c ↔ c ≠ 'Σ' ∧ c ≠ 'İ' ∧ lowerChar c = c := by
  constructor
  · intro settled
    exact ⟨settled.notSigma, settled.notDotted, settled.keepsForm⟩
  · rintro ⟨notSigma, notDotted, keepsForm⟩
    exact ⟨notSigma, notDotted, keepsForm⟩

instance (c : Char) : Decidable (IsSettled c) :=
  decidable_of_iff _ isSettled_iff.symm

/-- What a character of a text may become in lowercase. -/
structure IsLowerOf (lowered c : Char) : Prop where
  settled :
    IsSettled lowered
  keepsInk :
    isBlank c = false → isBlank lowered = false

theorem toNat_ofNat_of_isPlainCode
    {code : Nat}
    (plain : isPlainCode code = true) :
    (Char.ofNat code).toNat = code := by
  have valid : code.isValidChar := by
    simp only [isPlainCode, Bool.and_eq_true, Bool.or_eq_true, Nat.blt_eq,
      Nat.ble_eq] at plain
    simp only [Nat.isValidChar]
    omega
  rw [Char.ofNat, dif_pos valid]
  rfl

/--
A character past the first 128 keeps its form, or it is a capital of the table
and takes the form that its run gives.
-/
theorem lowerChar_cases
    {c : Char}
    (isFar : ¬ c.toNat < 128) :
    ((∀ run ∈ caseRuns, run.holds c.toNat = false) ∧ lowerChar c = c) ∨
    (∃ run ∈ caseRuns,
      run.holds c.toNat = true ∧ (lowerChar c).toNat = run.image c.toNat) := by
  rw [lowerChar, if_neg isFar]
  cases isFound : caseRuns.find? (fun run => run.holds c.toNat) with
  | none => exact .inl ⟨by simpa using isFound, rfl⟩
  | some run =>
      have isRun := List.mem_of_find?_eq_some isFound
      have isCapital : run.holds c.toNat = true := by
        simpa using List.find?_some isFound
      have plain := isPlainCode_image isRun isCapital
      exact .inr ⟨run, isRun, isCapital, toNat_ofNat_of_isPlainCode plain⟩

theorem lowerChar_of_not_held
    {c : Char}
    (isFar : ¬ c.toNat < 128)
    (unheld : ∀ run ∈ caseRuns, run.holds c.toNat = false) :
    lowerChar c = c := by
  rcases lowerChar_cases isFar with ⟨_, keepsForm⟩ | ⟨run, isRun, isCapital, _⟩
  · exact keepsForm
  · cases isCapital.symm.trans (unheld run isRun)

/--
What is seen on each of the first codes holds of the characters
with these codes.
-/
@[elab_as_elim]
theorem of_toNat_lt
    {holds : Char → Prop}
    {bound : Nat}
    {c : Char}
    (isNear : c.toNat < bound)
    (each : ∀ code < bound, holds (Char.ofNat code)) :
    holds c := by
  have ofCode := each c.toNat isNear
  rwa [Char.ofNat_toNat] at ofCode

/-- Lowercasing one of the first 128 characters. -/
theorem isLowerOf_near
    {c : Char}
    (isNear : c.toNat < 128) :
    IsLowerOf (lowerChar c) c := by
  have ofCode : lowerChar c ≠ 'Σ' ∧ lowerChar c ≠ 'İ' ∧ lowerChar (lowerChar c) =
      lowerChar c ∧ (isBlank c = false → isBlank (lowerChar c) = false) :=
    of_toNat_lt isNear (by decide)
  obtain ⟨notSigma, notDotted, keepsForm, keepsInk⟩ := ofCode
  exact ⟨⟨notSigma, notDotted, keepsForm⟩, keepsInk⟩

/--
A plain character that is no capital of the table is settled, and
it is not blank.
-/
theorem isSettled_of_isPlainCode
    {c : Char}
    (plain : isPlainCode c.toNat = true)
    (unheld : ∀ run ∈ caseRuns, run.holds c.toNat = false) :
    IsSettled c ∧ isBlank c = false := by
  simp only [isPlainCode, Bool.and_eq_true, Bool.not_eq_true',
    Bool.and_eq_false_iff, List.all_eq_true, Bool.or_eq_true, Nat.blt_eq] at plain
  obtain ⟨⟨⟨⟨_, noCapital⟩, notDotted⟩, notSigma⟩, noBlank⟩ := plain
  refine ⟨⟨?_, ?_, ?_⟩, ?_⟩
  · rintro rfl
    exact absurd notSigma (by decide)
  · rintro rfl
    exact absurd notDotted (by decide)
  · by_cases isNear : c.toNat < 128
    · have each :
          ∀ code < 128, (Nat.ble 65 code = false ∨ Nat.ble code 90 = false) →
            lowerChar (Char.ofNat code) = Char.ofNat code := by
        decide
      have keepsForm := each c.toNat isNear noCapital
      rwa [Char.ofNat_toNat] at keepsForm
    · exact lowerChar_of_not_held isNear unheld
  · rw [isBlank, inRanges, List.any_eq_false]
    intro range isRange
    have liesOutside := noBlank range isRange
    simp only [decide_eq_true_eq]
    omega

/-- Lowercasing a character other than the dotted capital I. -/
theorem isLowerOf_lowerChar
    {c : Char}
    (notDotted : c ≠ 'İ') :
    IsLowerOf (lowerChar c) c := by
  by_cases isNear : c.toNat < 128
  · exact isLowerOf_near isNear
  · rcases lowerChar_cases isNear with
      ⟨unheld, keepsForm⟩ | ⟨run, isRun, isCapital, isImage⟩
    · rw [keepsForm]
      refine ⟨⟨?_, notDotted, keepsForm⟩, id⟩
      rintro rfl
      have isHeld : ¬ ∀ run ∈ caseRuns, run.holds 'Σ'.toNat = false := by
        decide
      exact isHeld unheld
    · have plain := isPlainCode_image isRun isCapital
      obtain ⟨settled, notBlank⟩ :
          IsSettled (lowerChar c) ∧ isBlank (lowerChar c) = false := by
        refine isSettled_of_isPlainCode (by rwa [isImage]) ?_
        intro other isOther
        rw [isImage]
        exact CaseRun.holds_image_eq_false (avoids_caseRuns run isRun other isOther)
          isCapital
      exact ⟨settled, fun _ => notBlank⟩

/--
Every character of the lowercase form of a character is one of its
lowercase characters.
-/
theorem isLowerOf_of_mem_lowerInContext
    {before after : List Char}
    {c lowered : Char}
    (isLowered : lowered ∈ lowerInContext before c after) :
    IsLowerOf lowered c := by
  have settledSigmas : IsSettled 'σ' ∧ IsSettled 'ς' ∧ IsSettled 'i' ∧
      IsSettled '\u0307' := by
    decide
  obtain ⟨sigma, finalSigma, letter, mark⟩ := settledSigmas
  unfold lowerInContext at isLowered
  split at isLowered
  · split at isLowered
    · obtain rfl := List.mem_singleton.mp isLowered
      exact ⟨finalSigma, fun _ => by decide⟩
    · obtain rfl := List.mem_singleton.mp isLowered
      exact ⟨sigma, fun _ => by decide⟩
  · split at isLowered
    · rcases List.mem_cons.mp isLowered with rfl | isMark
      · exact ⟨letter, fun _ => by decide⟩
      · obtain rfl := List.mem_singleton.mp isMark
        exact ⟨mark, fun _ => by decide⟩
    · rename_i notDotted
      obtain rfl := List.mem_singleton.mp isLowered
      exact isLowerOf_lowerChar notDotted

theorem lowerInContext_ne_nil
    (before : List Char)
    (c : Char)
    (after : List Char) :
    lowerInContext before c after ≠ [] := by
  unfold lowerInContext
  repeat' split
  all_goals simp

/-- A settled character is its own lowercase form in every context. -/
theorem IsSettled.lowerInContext_eq
    {c : Char}
    (settled : IsSettled c)
    (before after : List Char) :
    lowerInContext before c after = [c] := by
  rw [lowerInContext, if_neg settled.notSigma, if_neg settled.notDotted,
    settled.keepsForm]

/-- Lowercasing leaves a text of settled characters as it is. -/
theorem lowerFrom_of_settled
    {chars : List Char}
    (settled : ∀ c ∈ chars, IsSettled c)
    (before : List Char) :
    lowerFrom before chars = chars := by
  induction chars generalizing before with
  | nil => rfl
  | cons c rest inductionHypothesis =>
      rw [lowerFrom, (settled c (by simp)).lowerInContext_eq,
        inductionHypothesis
          (fun d isLater => settled d (List.mem_cons_of_mem _ isLater))]
      rfl

/-- A settled character of a text stands in its lowercase form. -/
theorem IsSettled.mem_lowerFrom
    {c : Char}
    (settled : IsSettled c)
    {chars : List Char}
    (isChar : c ∈ chars)
    (before : List Char) :
    c ∈ lowerFrom before chars := by
  induction chars generalizing before with
  | nil => cases isChar
  | cons first rest inductionHypothesis =>
      rw [lowerFrom]
      rcases List.mem_cons.mp isChar with rfl | isLater
      · rw [settled.lowerInContext_eq]
        exact List.mem_cons_self
      · exact List.mem_append_right _ (inductionHypothesis isLater _)

/-- Lowercasing leaves blanks as they are. -/
theorem isSettled_of_isBlank
    {c : Char}
    (blank : isBlank c = true) :
    IsSettled c := by
  have each :
      ∀ range ∈ blankRanges, ∀ code ∈ List.range' range.1 (range.2 + 1 - range.1),
        IsSettled (Char.ofNat code) := by
    decide
  obtain ⟨range, isRange, inRange⟩ := List.any_eq_true.mp blank
  have bounds : range.1 ≤ c.toNat ∧ c.toNat ≤ range.2 := of_decide_eq_true inRange
  have inList : c.toNat ∈ List.range' range.1 (range.2 + 1 - range.1) := by
    rw [List.mem_range'_1]
    omega
  have settled := each range isRange c.toNat inList
  rwa [Char.ofNat_toNat] at settled

/-- The characters of a lowercase text are settled. -/
theorem isSettled_of_mem_lowerFrom
    {before chars : List Char}
    {lowered : Char}
    (isLowered : lowered ∈ lowerFrom before chars) :
    IsSettled lowered := by
  induction chars generalizing before with
  | nil => cases isLowered
  | cons c rest inductionHypothesis =>
      rw [lowerFrom] at isLowered
      rcases List.mem_append.mp isLowered with isFirst | isLater
      · exact (isLowerOf_of_mem_lowerInContext isFirst).settled
      · exact inductionHypothesis isLater

/-- Lowercasing twice is lowercasing once. -/
theorem lowerChars_lowerChars
    (chars : List Char) :
    lowerChars (lowerChars chars) = lowerChars chars :=
  lowerFrom_of_settled (fun _ isLowered => isSettled_of_mem_lowerFrom isLowered) []

/-- A lowercase text ends with the lowercase form of its last character. -/
theorem exists_lowerFrom_concat
    (chars : List Char)
    (last : Char)
    (before : List Char) :
    ∃ front context,
      lowerFrom before (chars ++ [last]) =
        front ++ lowerInContext context last [] := by
  induction chars generalizing before with
  | nil => exact ⟨[], before, by simp [lowerFrom]⟩
  | cons c rest inductionHypothesis =>
      obtain ⟨front, context, shape⟩ := inductionHypothesis (c :: before)
      refine ⟨lowerInContext before c (rest ++ [last]) ++ front, context, ?_⟩
      rw [List.cons_append, lowerFrom, shape, List.append_assoc]

/-- Lowercasing a trimmed text gives a trimmed text. -/
theorem Trimmed.lowerChars
    {chars : List Char}
    (trimmed : Trimmed chars) :
    Trimmed (lowerChars chars) := by
  constructor
  · intro lowered isFirst
    cases chars with
    | nil => cases isFirst
    | cons c rest =>
        obtain ⟨first, more, isForm⟩ :=
          List.exists_cons_of_ne_nil (lowerInContext_ne_nil [] c rest)
        rw [Text.lowerChars, lowerFrom, isForm] at isFirst
        obtain rfl : first = lowered := by simpa using isFirst
        have isLower : IsLowerOf first c :=
          isLowerOf_of_mem_lowerInContext (isForm ▸ List.mem_cons_self)
        exact isLower.keepsInk (trimmed.front c rfl)
  · intro lowered isLast
    rcases chars.eq_nil_or_concat' with rfl | ⟨init, last, rfl⟩
    · cases isLast
    · obtain ⟨front, context, shape⟩ := exists_lowerFrom_concat init last []
      rw [Text.lowerChars, shape,
        List.getLast?_append_of_ne_nil _
          (lowerInContext_ne_nil context last [])] at isLast
      have isLower : IsLowerOf lowered last :=
        isLowerOf_of_mem_lowerInContext (List.mem_of_getLast? isLast)
      exact isLower.keepsInk (trimmed.back last (by simp))

/-- The marks that texts are searched for, whatever their case. -/
def soughtMarks : List Char :=
  ['@', '(', '/']

/-- Only an at sign becomes an at sign, and so with the other marks. -/
theorem eq_mark_of_lowerChar
    {mark c : Char}
    (isMark : mark ∈ soughtMarks)
    (isForm : lowerChar c = mark) :
    c = mark := by
  by_cases isNear : c.toNat < 128
  · have ofCode :
        soughtMarks.all (fun mark => decide (lowerChar c = mark → c = mark)) =
          true :=
      of_toNat_lt isNear (by decide)
    exact of_decide_eq_true (List.all_eq_true.mp ofCode mark isMark) isForm
  · rcases lowerChar_cases isNear with
      ⟨_, keepsForm⟩ | ⟨run, isRun, isCapital, isImage⟩
    · exact keepsForm.symm.trans isForm
    · have noImage : soughtMarks.all (fun mark => decide (∀ run ∈ caseRuns,
          mark.toNat ∉ run.images)) = true := by
        decide +kernel
      rw [isForm] at isImage
      have isThere : mark.toNat ∈ run.images :=
        isImage ▸ run.image_mem_images isCapital
      exact (of_decide_eq_true (List.all_eq_true.mp noImage mark isMark) run isRun
        isThere).elim

/-- A mark in a lowercase text stands in the text itself. -/
theorem mark_mem_of_mem_lowerFrom
    {mark : Char}
    (isMark : mark ∈ soughtMarks)
    {before chars : List Char}
    (isChar : mark ∈ lowerFrom before chars) :
    mark ∈ chars := by
  have noContext :
      soughtMarks.all (fun mark => decide (mark ∉ ['σ', 'ς', 'i', '\u0307'])) =
        true := by
    decide
  have isOther := of_decide_eq_true (List.all_eq_true.mp noContext mark isMark)
  simp only [List.mem_cons, List.not_mem_nil, or_false, not_or] at isOther
  induction chars generalizing before with
  | nil => cases isChar
  | cons c rest inductionHypothesis =>
      rw [lowerFrom] at isChar
      rcases List.mem_append.mp isChar with isFirst | isLater
      · rw [lowerInContext] at isFirst
        split at isFirst
        · split at isFirst
          · simp [isOther] at isFirst
          · simp [isOther] at isFirst
        · split at isFirst
          · simp [isOther] at isFirst
          · have isForm := (List.mem_singleton.mp isFirst).symm
            rw [eq_mark_of_lowerChar isMark isForm]
            exact List.mem_cons_self
      · exact List.mem_cons_of_mem _ (inductionHypothesis isLater)

/-- Only a parenthesis counts as one when case is ignored. -/
theorem eq_parenthesis_of_sameLetter
    {c : Char}
    (isSame : sameLetter c '(' = true) :
    c = '(' := by
  by_contra differs
  have noForm : lowerChar c ≠ '(' :=
    fun isForm => differs (eq_mark_of_lowerChar (by decide) isForm)
  simp [sameLetter, differs, noForm] at isSame

/--
The first character of a lowercase text is the lowercase form of the first one.
-/
theorem exists_of_head?_lowerChars
    {chars : List Char}
    {lowered : Char}
    (isFirst : (lowerChars chars).head? = some lowered)
    (noContext : lowered ∉ ['σ', 'ς', 'i']) :
    ∃ c rest, chars = c :: rest ∧ c ≠ 'Σ' ∧ c ≠ 'İ' ∧ lowerChar c = lowered := by
  simp only [List.mem_cons, List.not_mem_nil, or_false, not_or] at noContext
  obtain ⟨notSigma, notFinalSigma, notLetter⟩ := noContext
  cases chars with
  | nil => cases isFirst
  | cons c rest =>
      rw [lowerChars, lowerFrom, lowerInContext] at isFirst
      split at isFirst
      · split at isFirst
        · exact (notFinalSigma (by simpa using isFirst.symm)).elim
        · exact (notSigma (by simpa using isFirst.symm)).elim
      · split at isFirst
        · exact (notLetter (by simpa using isFirst.symm)).elim
        · rename_i isOther isUndotted
          exact ⟨c, rest, rfl, isOther, isUndotted, by simpa using isFirst⟩

/-- A text whose lowercase form begins with an at sign begins with one. -/
theorem head?_eq_at_of_lowerChars
    {chars : List Char}
    (isAt : (lowerChars chars).head? = some '@') :
    chars.head? = some '@' := by
  obtain ⟨c, rest, rfl, _, _, isForm⟩ := exists_of_head?_lowerChars isAt (by decide)
  rw [List.head?_cons, eq_mark_of_lowerChar (by decide) isForm]

theorem lower_lower
    (text : String) :
    lower (lower text) = lower text := by
  rw [lower, lower, String.toList_ofList, lowerChars_lowerChars]

/-- The lowercase form of a trimmed text has nothing to be trimmed or lowercased. -/
theorem lower_trim_lower_trim
    (text : String) :
    lower (trim (lower (trim text))) = lower (trim text) := by
  have trimmed := (trimmed_trimChars text.toList).lowerChars
  simp only [lower, trim, String.toList_ofList, trimmed.trimChars_eq,
    lowerChars_lowerChars]

end DesignTokens.Text
