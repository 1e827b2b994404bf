import DesignTokens.Proofs.Text.Casing
import DesignTokens.Proofs.Text.Search

namespace DesignTokens.Text

/-!
# Spellings of a word

A word is read without regard to case and then lowercased.  The two notions of
case differ on three letters: the dotless i and the dotted capital I count as an
i, and the long s counts as an s, but none of them is lowercased to that letter.
So what is read as a word is that word again, unless one of the three stands in
it, and then it is one of finitely many strays.
-/

/-- The letters that count as another letter than the one they are lowercased to. -/
def looseLetters : List Char :=
  ['\u0131', '\u0130', '\u017F']

/-- Whether a character counts as a letter that it is not lowercased to. -/
def isLoose (c : Char) : Bool :=
  looseLetters.contains c

/-- The lowercase forms of what counts as a letter. -/
def letterForms (letter : Char) : List (List Char) :=
  if letter = 'i' then [['i'], ['\u0131'], ['i', '\u0307']]
  else if letter = 's' then [['s'], ['\u017F']]
  else [[letter]]

/-- The lowercase forms of what counts as a word. -/
def wordForms : List Char → List (List Char)
  | [] => [[]]
  | letter :: word =>
      (letterForms letter).flatMap (fun form => (wordForms word).map (form ++ ·))

/-- Whether a character is none of the capitals and one of the first 128. -/
def isWordLetter (letter : Char) : Bool :=
  letter.toNat < 128 && !letter.isUpper

theorem isSettled_of_isWordLetter
    {letter : Char}
    (isSmall : isWordLetter letter = true) :
    IsSettled letter := by
  have isNear : letter.toNat < 128 :=
    of_decide_eq_true (Bool.and_eq_true_iff.mp isSmall).1
  have settled : isWordLetter letter = true → IsSettled letter :=
    of_toNat_lt isNear (by decide)
  exact settled isSmall

/--
What counts as a letter has the letter for its lowercase form, or it is loose.
-/
theorem lowerInContext_of_sameLetter
    {c letter : Char}
    (isSame : sameLetter c letter = true)
    (isSmall : isWordLetter letter = true)
    (before after : List Char) :
    lowerInContext before c after = [letter] ∨
      isLoose c = true ∧ lowerInContext before c after ∈ letterForms letter := by
  have settled := isSettled_of_isWordLetter isSmall
  simp only [sameLetter, Bool.or_eq_true, Bool.and_eq_true, beq_iff_eq] at isSame
  rcases isSame with ((rfl | isLowered) | ⟨rfl, rfl⟩) | ⟨rfl, rfl⟩
  · exact .inl (settled.lowerInContext_eq before after)
  · split at isLowered
    · rename_i isDotted
      rw [isDotted, eq_of_beq isLowered]
      exact .inr ⟨rfl,
        List.mem_cons_of_mem _ (List.mem_cons_of_mem _ List.mem_cons_self)⟩
    · rename_i notDotted
      have isForm : lowerChar c = letter := eq_of_beq isLowered
      have notSigma : c ≠ 'Σ' := by
        rintro rfl
        rw [← isForm] at isSmall
        cases isSmall
      rw [lowerInContext, if_neg notSigma, if_neg notDotted, isForm]
      exact .inl rfl
  · exact .inr ⟨rfl, List.mem_cons_of_mem _ List.mem_cons_self⟩
  · exact .inr ⟨rfl, List.mem_cons_of_mem _ List.mem_cons_self⟩

theorem singleton_mem_letterForms
    (letter : Char) :
    [letter] ∈ letterForms letter := by
  unfold letterForms
  split
  · rename_i isDotted
    rw [isDotted]
    exact List.mem_cons_self
  · split
    · rename_i isLong
      rw [isLong]
      exact List.mem_cons_self
    · exact List.mem_singleton_self _

/-- What is taken as a word, without what stands behind it. -/
theorem take_of_scanWord?_cons
    {word rest more : List Char}
    {c : Char}
    (isTaken : scanWord? word more = some rest) :
    (c :: more).take ((c :: more).length - rest.length) =
      c :: more.take (more.length - rest.length) := by
  have isShort : rest.length ≤ more.length :=
    (suffix_of_scanWord? isTaken).length_le
  rw [List.length_cons, Nat.succ_sub isShort, List.take_succ_cons]

section Taken

variable {word chars rest : List Char}

/-- What is taken as a word is lowercased to one of its forms. -/
theorem mem_wordForms_of_scanWord?
    (isTaken : scanWord? word chars = some rest)
    (areSmall : word.all isWordLetter = true)
    (before : List Char) :
    lowerFrom before (chars.take (chars.length - rest.length)) ∈
      wordForms word := by
  fun_induction scanWord? word chars generalizing before with
  | case1 chars =>
      cases isTaken
      rw [Nat.sub_self, List.take_zero]
      exact List.mem_singleton_self _
  | case2 => cases isTaken
  | case3 letter word c more isSame inductionHypothesis =>
      rw [List.all_cons, Bool.and_eq_true] at areSmall
      rw [take_of_scanWord?_cons isTaken, lowerFrom, wordForms, List.mem_flatMap]
      refine ⟨_, ?_, List.mem_map_of_mem (inductionHypothesis isTaken areSmall.2 _)⟩
      rcases lowerInContext_of_sameLetter isSame areSmall.1 before _ with
        isLetter | ⟨_, isForm⟩
      · rw [isLetter]
        exact singleton_mem_letterForms letter
      · exact isForm
  | case4 => cases isTaken

/--
What is taken as a word is lowercased to the word, if no loose
letter stands in it.
-/
theorem lowerFrom_of_scanWord?
    (isTaken : scanWord? word chars = some rest)
    (areSmall : word.all isWordLetter = true)
    (noLoose : ∀ c ∈ chars.take (chars.length - rest.length), isLoose c = false)
    (before : List Char) :
    lowerFrom before (chars.take (chars.length - rest.length)) = word := by
  fun_induction scanWord? word chars generalizing before with
  | case1 chars =>
      cases isTaken
      rw [Nat.sub_self, List.take_zero]
      rfl
  | case2 => cases isTaken
  | case3 letter word c more isSame inductionHypothesis =>
      rw [List.all_cons, Bool.and_eq_true] at areSmall
      rw [take_of_scanWord?_cons isTaken] at noLoose ⊢
      rw [lowerFrom, inductionHypothesis isTaken areSmall.2
        (fun d isLater => noLoose d (List.mem_cons_of_mem _ isLater))]
      rcases lowerInContext_of_sameLetter isSame areSmall.1 before _ with
        isLetter | ⟨isLoose, _⟩
      · rw [isLetter]
        rfl
      · cases isLoose.symm.trans (noLoose c List.mem_cons_self)
  | case4 => cases isTaken

end Taken

/-! Vocabularies. -/

/-- The forms of the words of a vocabulary that are none of its words. -/
def strays (words : List String) : List String :=
  (words.flatMap (fun word => (wordForms word.toList).map String.ofList)).filter
    (fun form => !words.contains form)

/--
A text is a word of a vocabulary, or it is a stray that was read from a text
with a loose letter.
-/
def IsWordOf (words : List String) (raw word : String) : Prop :=
  word ∈ words ∨ word ∈ strays words ∧ raw.toList.any isLoose = true

/--
What is taken as a word of a vocabulary is lowercased to a word of
it or to a stray.
-/
theorem isWordOf_of_scanWord?
    {words : List String}
    {raw word : String}
    {chars rest : List Char}
    (isTaken : scanWord? word.toList chars = some rest)
    (isListed : word ∈ words)
    (areSmall : words.all (fun word => word.toList.all isWordLetter) = true)
    (isPart : ∀ c ∈ chars, c ∈ raw.toList) :
    IsWordOf words raw
      (String.ofList (lowerChars (chars.take (chars.length - rest.length)))) := by
  have isSmall := List.all_eq_true.mp areSmall word isListed
  by_cases isThere : raw.toList.any isLoose = true
  · have isForm := mem_wordForms_of_scanWord? isTaken isSmall []
    refine or_iff_not_imp_left.mpr fun notListed => ⟨?_, isThere⟩
    rw [strays, List.mem_filter, List.mem_flatMap]
    exact ⟨⟨word, isListed, List.mem_map_of_mem isForm⟩, by simpa using notListed⟩
  · rw [List.any_eq_true] at isThere
    push Not at isThere
    left
    have isWord := lowerFrom_of_scanWord? isTaken isSmall (fun c isTakenChar =>
      Bool.eq_false_iff.mpr
        (isThere c (isPart c (List.mem_of_mem_take isTakenChar)))) []
    rwa [lowerChars, isWord, String.ofList_toList]

/-- A text without loose letters is read as a word of the vocabulary. -/
theorem IsWordOf.mem
    {words : List String}
    {raw word : String}
    (isWord : IsWordOf words raw word)
    (noLoose : raw.toList.any isLoose = false) :
    word ∈ words := by
  refine isWord.resolve_right ?_
  rintro ⟨_, isThere⟩
  cases isThere.symm.trans noLoose

end DesignTokens.Text
