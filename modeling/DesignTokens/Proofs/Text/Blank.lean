import DesignTokens.Text.Blank
import Mathlib.Data.List.DropRight

namespace DesignTokens.Text

/-!
# Trimmed texts and words

Trimming gives a text without a blank at either end, and leaves such a text as
it is.  Blanks end words, so the words of two texts with a blank between them are
those of the first and then those of the second, and blanks at the ends of a text
do not change its words.
-/

/-- Neither the first nor the last character of a text is blank. -/
structure Trimmed (chars : List Char) : Prop where
  front :
    ∀ c, chars.head? = some c → isBlank c = false
  back :
    ∀ c, chars.getLast? = some c → isBlank c = false

theorem isBlank_of_isSeparator
    {c : Char}
    (isSeparated : isSeparator c = true) :
    isBlank c = true := by
  simp only [isSeparator, isBlank, inRanges, blankRanges, List.any_cons,
    List.any_nil, Bool.or_false, Bool.or_eq_true,
    decide_eq_true_eq] at isSeparated ⊢
  omega

/-- Dropping trailing characters is the library's dropping from the right. -/
theorem trimEndWhile_eq_rdropWhile
    (drop : Char → Bool)
    (chars : List Char) :
    trimEndWhile drop chars = chars.rdropWhile drop :=
  rfl

theorem trimmed_trimChars
    (chars : List Char) :
    Trimmed (trimChars chars) := by
  rw [trimChars, trimEndWhile_eq_rdropWhile]
  constructor
  · intro c isFirst
    obtain ⟨dropped, joined⟩ := List.rdropWhile_prefix isBlank (skipBlank chars)
    have isFirstInside : (skipBlank chars).head? = some c := by
      rw [← joined, List.head?_append, isFirst]
      rfl
    have notBlank := List.head?_dropWhile_not isBlank chars
    rw [show chars.dropWhile isBlank = skipBlank chars from
      rfl, isFirstInside] at notBlank
    exact notBlank
  · intro c isLast
    have isThere : (skipBlank chars).rdropWhile isBlank ≠ [] := by
      intro isEmpty
      rw [isEmpty] at isLast
      cases isLast
    rw [List.getLast?_eq_some_getLast isThere] at isLast
    obtain rfl := Option.some.inj isLast
    simpa using List.rdropWhile_last_not isBlank (skipBlank chars) isThere

/-- Trimming leaves a trimmed text as it is. -/
theorem Trimmed.trimChars_eq
    {chars : List Char}
    (trimmed : Trimmed chars) :
    trimChars chars = chars := by
  have frontKept : skipBlank chars = chars := by
    cases chars with
    | nil => rfl
    | cons c rest =>
        exact List.dropWhile_cons_of_neg (by simp [trimmed.front c rfl])
  rw [trimChars, frontKept, trimEndWhile_eq_rdropWhile, List.rdropWhile_eq_self_iff]
  intro isThere
  simp [trimmed.back _ (List.getLast?_eq_some_getLast isThere)]

theorem trimmed_of_not_blank
    {chars : List Char}
    (noBlank : ∀ c ∈ chars, isBlank c = false) :
    Trimmed chars :=
  ⟨fun c isFirst => noBlank c (List.mem_of_head? isFirst),
    fun c isLast => noBlank c (List.mem_of_getLast? isLast)⟩

theorem isBlank_space :
    isBlank ' ' = true := by
  decide

/-- A blank in front of a text is dropped. -/
theorem trimChars_space
    (chars : List Char) :
    trimChars (' ' :: chars) = trimChars chars := by
  rw [trimChars, skipBlank, List.dropWhile_cons_of_pos isBlank_space]
  rfl

/-- Trimming only leaves characters out. -/
theorem trimChars_sublist
    (chars : List Char) :
    (trimChars chars).Sublist chars := by
  rw [trimChars, trimEndWhile_eq_rdropWhile]
  exact (List.rdropWhile_prefix isBlank _).sublist.trans
    (List.dropWhile_sublist isBlank)

/-- A text that begins with no blank begins alike when it is trimmed. -/
theorem exists_trimChars_cons
    {c : Char}
    (isInk : isBlank c = false)
    (rest : List Char) :
    ∃ more, trimChars (c :: rest) = c :: more := by
  have frontKept : skipBlank (c :: rest) = c :: rest :=
    List.dropWhile_cons_of_neg (by simp [isInk])
  rw [trimChars, frontKept, trimEndWhile_eq_rdropWhile]
  cases isForm : (c :: rest).rdropWhile isBlank with
  | nil =>
      have allBlank := List.rdropWhile_eq_nil_iff.mp isForm c List.mem_cons_self
      cases allBlank.symm.trans isInk
  | cons first more =>
      have isFront : first :: more <+: c :: rest :=
        isForm ▸ List.rdropWhile_prefix isBlank _
      obtain ⟨rfl, _⟩ := List.cons_prefix_cons.mp isFront
      exact ⟨more, rfl⟩

/-- Trimming twice is trimming once. -/
theorem trimChars_trimChars
    (chars : List Char) :
    trimChars (trimChars chars) = trimChars chars :=
  (trimmed_trimChars chars).trimChars_eq

theorem toList_trim
    (text : String) :
    (trim text).toList = trimChars text.toList := by
  rw [trim, String.toList_ofList]

theorem trim_trim
    (text : String) :
    trim (trim text) = trim text := by
  rw [trim, trim, String.toList_ofList, trimChars_trimChars]

theorem eq_or_mem_of_mem_consWord
    {start word : List Char}
    {rest : List (List Char)}
    (isListed : word ∈ consWord start rest) :
    word = start.reverse ∨ word ∈ rest := by
  unfold consWord at isListed
  split at isListed
  · exact .inr isListed
  · exact List.mem_cons.mp isListed

/--
Words are made of the start of the first one and of the characters of the text.
-/
theorem mem_of_mem_wordsFrom
    {start chars word : List Char}
    (isWord : word ∈ wordsFrom start chars)
    {c : Char}
    (isChar : c ∈ word) :
    c ∈ start ∨ c ∈ chars := by
  induction chars generalizing start with
  | nil =>
      rcases eq_or_mem_of_mem_consWord isWord with rfl | inRest
      · exact .inl (List.mem_reverse.mp isChar)
      · cases inRest
  | cons first rest inductionHypothesis =>
      rw [wordsFrom] at isWord
      split at isWord
      · rcases eq_or_mem_of_mem_consWord isWord with rfl | inRest
        · exact .inl (List.mem_reverse.mp isChar)
        · rcases inductionHypothesis inRest with inNothing | isLater
          · cases inNothing
          · exact .inr (List.mem_cons_of_mem _ isLater)
      · rcases inductionHypothesis isWord with inStart | isLater
        · rcases List.mem_cons.mp inStart with rfl | inStart
          · exact .inr List.mem_cons_self
          · exact .inl inStart
        · exact .inr (List.mem_cons_of_mem _ isLater)

/-- The words of a text are made of its characters. -/
theorem mem_of_mem_words
    {chars word : List Char}
    (isWord : word ∈ words chars)
    {c : Char}
    (isChar : c ∈ word) :
    c ∈ chars := by
  rcases mem_of_mem_wordsFrom isWord isChar with inNothing | inChars
  · cases inNothing
  · exact inChars

/-- A text without blanks goes into the word that it continues. -/
theorem wordsFrom_of_not_blank
    {chars : List Char}
    (noBlank : ∀ c ∈ chars, isBlank c = false)
    (start : List Char) :
    wordsFrom start chars = consWord (chars.reverse ++ start) [] := by
  induction chars generalizing start with
  | nil => rfl
  | cons first rest inductionHypothesis =>
      obtain ⟨firstInk, restInk⟩ := List.forall_mem_cons.mp noBlank
      rw [wordsFrom, if_neg (by simp [firstInk]), inductionHypothesis restInk]
      simp

/-- A text without blanks is one word, unless it is empty. -/
theorem words_of_not_blank
    {chars : List Char}
    (isThere : chars ≠ [])
    (noBlank : ∀ c ∈ chars, isBlank c = false) :
    words chars = [chars] := by
  rw [words, wordsFrom_of_not_blank noBlank, consWord, List.append_nil]
  simp [isThere]

/-- What holds behind every blank of a text holds in every word but the first. -/
theorem of_mem_tail_wordsFrom
    {holds : Char → Prop}
    {start chars word : List Char}
    (behindBlanks :
      chars.Pairwise (fun earlier later => isBlank earlier = true → holds later))
    (isLater : word ∈ (wordsFrom start chars).tail)
    {c : Char}
    (isChar : c ∈ word) :
    holds c := by
  induction chars generalizing start with
  | nil =>
      rw [wordsFrom, consWord] at isLater
      split at isLater <;> cases isLater
  | cons first rest inductionHypothesis =>
      obtain ⟨behindFirst, restPairs⟩ := List.pairwise_cons.mp behindBlanks
      rw [wordsFrom] at isLater
      split at isLater
      · rename_i blank
        -- The blank ends a word that may be empty, so every later word stands
        -- behind it.
        have inRest : word ∈ wordsFrom [] rest := by
          unfold consWord at isLater
          split at isLater
          · exact List.mem_of_mem_tail isLater
          · exact isLater
        exact behindFirst c (mem_of_mem_words inRest isChar) blank
      · exact inductionHypothesis restPairs isLater

/-! Words of texts that are put together. -/

theorem consWord_append
    (word : List Char)
    (first rest : List (List Char)) :
    consWord word (first ++ rest) = consWord word first ++ rest := by
  unfold consWord
  split
  · rfl
  · rfl

theorem wordsFrom_append_blank
    {c : Char}
    (blank : isBlank c = true)
    (word front rest : List Char) :
    wordsFrom word (front ++ c :: rest) = wordsFrom word front ++ words rest := by
  induction front generalizing word with
  | nil =>
      rw [List.nil_append, wordsFrom.eq_def word (c :: rest)]
      simp only [blank, if_true]
      exact consWord_append word [] (words rest)
  | cons first front inductionHypothesis =>
      rw [List.cons_append, wordsFrom, wordsFrom, inductionHypothesis,
        inductionHypothesis]
      split
      · exact consWord_append _ _ _
      · rfl

/-- Words are those before a blank and those behind it. -/
theorem words_append_blank
    {c : Char}
    (blank : isBlank c = true)
    (front rest : List Char) :
    words (front ++ c :: rest) = words front ++ words rest :=
  wordsFrom_append_blank blank [] front rest

theorem words_blank_cons
    {c : Char}
    (blank : isBlank c = true)
    (rest : List Char) :
    words (c :: rest) = words rest :=
  words_append_blank blank [] rest

theorem words_skipBlank
    (chars : List Char) :
    words (skipBlank chars) = words chars := by
  induction chars with
  | nil => rfl
  | cons c rest inductionHypothesis =>
      rw [skipBlank, List.dropWhile_cons]
      split
      · rename_i blank
        rw [words_blank_cons blank]
        exact inductionHypothesis
      · rfl

/-- Trimming leaves the words as they are. -/
theorem words_trimChars
    (chars : List Char) :
    words (trimChars chars) = words chars := by
  rw [trimChars, trimEndWhile_eq_rdropWhile, ← words_skipBlank chars]
  generalize skipBlank chars = front
  induction front using List.reverseRecOn with
  | nil => rfl
  | append_singleton front c inductionHypothesis =>
      cases blank : isBlank c with
      | true =>
          rw [List.rdropWhile_concat_pos _ _ _ blank, inductionHypothesis,
            words_append_blank blank front []]
          exact (List.append_nil _).symm
      | false => rw [List.rdropWhile_concat_neg _ _ _ (by simp [blank])]

/-- A word has at least one character, and none of its characters is blank. -/
theorem ink_of_mem_words
    {chars word : List Char}
    (isWord : word ∈ words chars) :
    word ≠ [] ∧ ∀ c ∈ word, isBlank c = false := by
  have inFrom : ∀ start : List Char, (∀ c ∈ start, isBlank c = false) →
      word ∈ wordsFrom start chars → word ≠ [] ∧ ∀ c ∈ word, isBlank c = false := by
    have inCons : ∀ {start : List Char} {rest : List (List Char)},
        (∀ c ∈ start, isBlank c = false) → word ∈ consWord start rest →
        (word ≠ [] ∧ ∀ c ∈ word, isBlank c = false) ∨ word ∈ rest := by
      intro start rest startInk isListed
      unfold consWord at isListed
      split at isListed
      · exact .inr isListed
      · rename_i isThere
        rcases List.mem_cons.mp isListed with rfl | inRest
        · exact .inl ⟨by simpa using
            isThere, fun c isChar => startInk c (List.mem_reverse.mp isChar)⟩
        · exact .inr inRest
    clear isWord
    induction chars with
    | nil =>
        intro start startInk isListed
        exact (inCons startInk isListed).resolve_right List.not_mem_nil
    | cons first rest inductionHypothesis =>
        intro start startInk isListed
        rw [wordsFrom] at isListed
        split at isListed
        · exact (inCons startInk isListed).elim id
            (inductionHypothesis [] (List.forall_mem_nil _))
        · rename_i ink
          exact inductionHypothesis (first :: start)
            (List.forall_mem_cons.mpr ⟨by simpa using ink, startInk⟩) isListed
  exact inFrom [] (List.forall_mem_nil _) isWord

/-! Texts behind blanks. -/

/-- Texts, each with a blank in front. -/
def spaced (texts : List (List Char)) : List Char :=
  texts.flatMap (fun chars => ' ' :: chars)

@[simp] theorem spaced_nil :
    spaced [] = [] :=
  rfl

@[simp] theorem spaced_cons
    (chars : List Char)
    (rest : List (List Char)) :
    spaced (chars :: rest) = ' ' :: (chars ++ spaced rest) := by
  simp [spaced]

/-- The words of spaced texts are those of one text after the other. -/
theorem words_append_spaced
    (front : List Char)
    (texts : List (List Char)) :
    words (front ++ spaced texts) = words front ++ texts.flatMap words := by
  induction texts generalizing front with
  | nil => simp
  | cons chars rest inductionHypothesis =>
      rw [spaced_cons, words_append_blank isBlank_space, inductionHypothesis,
        List.flatMap_cons]

theorem mem_of_mem_spaced
    {texts : List (List Char)}
    {c : Char}
    (isChar : c ∈ spaced texts) :
    c = ' ' ∨ ∃ chars ∈ texts, c ∈ chars := by
  obtain ⟨chars, isListed, inChars⟩ := List.mem_flatMap.mp isChar
  exact (List.mem_cons.mp inChars).imp_right fun isThere =>
    ⟨chars, isListed, isThere⟩

/-- A text whose last character is there and not blank. -/
def EndsInInk (chars : List Char) : Prop :=
  ∃ c, chars.getLast? = some c ∧ isBlank c = false

theorem endsInInk_of_ink
    {chars : List Char}
    (isThere : chars ≠ [])
    (ink : ∀ c ∈ chars, isBlank c = false) :
    EndsInInk chars :=
  ⟨_, List.getLast?_eq_some_getLast isThere, ink _ (List.getLast_mem isThere)⟩

theorem EndsInInk.append
    {chars : List Char}
    (ends : EndsInInk chars)
    (front : List Char) :
    EndsInInk (front ++ chars) := by
  obtain ⟨c, isLast, ink⟩ := ends
  refine ⟨c, ?_, ink⟩
  rw [List.getLast?_append, isLast]
  rfl

theorem endsInInk_append_spaced
    {front : List Char}
    (isEnd : EndsInInk front)
    {texts : List (List Char)}
    (areEnds : ∀ chars ∈ texts, EndsInInk chars) :
    EndsInInk (front ++ spaced texts) := by
  induction texts generalizing front with
  | nil => rwa [spaced_nil, List.append_nil]
  | cons chars rest inductionHypothesis =>
      obtain ⟨isNext, areLater⟩ := List.forall_mem_cons.mp areEnds
      rw [spaced_cons, ← List.cons_append, ← List.append_assoc]
      exact inductionHypothesis ((isNext.append [' ']).append front) areLater

/-- A word with spaced texts behind it is trimmed when each of them ends in ink. -/
theorem trimmed_append_spaced
    {word : List Char}
    (isThere : word ≠ [])
    (ink : ∀ c ∈ word, isBlank c = false)
    {texts : List (List Char)}
    (areEnds : ∀ chars ∈ texts, EndsInInk chars) :
    Trimmed (word ++ spaced texts) := by
  obtain ⟨last, isEnd, endInk⟩ :=
    endsInInk_append_spaced (endsInInk_of_ink isThere ink) areEnds
  refine ⟨fun c isHead => ?_, fun c isLast => ?_⟩
  · rw [List.head?_append_of_ne_nil _ isThere] at isHead
    exact ink c (List.mem_of_head? isHead)
  · obtain rfl := Option.some.inj (isEnd.symm.trans isLast)
    exact endInk

end DesignTokens.Text
