import DesignTokens.Proofs.Text.Spellings
import DesignTokens.Value.Gradient

namespace DesignTokens.Gradient

/-!
# Names of gradient functions

The name of a gradient function is read without regard to case, and its type is
the name in lowercase.  That is one of three words in most cases.  But a dotless
i counts as an i and stays one in lowercase, and a capital i with a dot becomes
two characters, of which the second is a letter of no name.
-/

open DesignTokens.Text

/--
The lowercase forms of names that are names again, each with the word
that it is read as.
-/
def plainTypes : List (String × String) :=
  [ ("linear", "linear"), ("l\u0131near", "linear"), ("radial", "radial"),
    ("rad\u0131al", "radial"), ("conic", "conic"), ("con\u0131c", "conic") ]

/--
The lowercase forms of names that are names no more: the dot has come off the i.
-/
def dottedTypes : List String :=
  ["li\u0307near", "radi\u0307al", "coni\u0307c"]

/-! Spellings of a word. -/

/-- The lowercase forms of what counts as a letter. -/
def forms (letter : Char) : List (List Char) :=
  if letter = 'i' then [['i'], ['\u0131'], ['i', '\u0307']] else [[letter]]

/-- The lowercase forms of what counts as a word. -/
def spellings : List Char → List (List Char)
  | [] => [[]]
  | letter :: word =>
      (forms letter).flatMap (fun form => (spellings word).map (form ++ ·))

/--
Whether a letter is neither capital nor one with another letter
beside its capital.
-/
def isPlainLetter (letter : Char) : Bool :=
  letter.isLower && letter != 's'

theorem letterForms_of_isPlainLetter
    {letter : Char}
    (isPlain : isPlainLetter letter = true) :
    letterForms letter = forms letter := by
  have notLong : letter ≠ 's' := by
    simpa using (Bool.and_eq_true_iff.mp isPlain).2
  rw [letterForms, forms, if_neg notLong]

theorem isWordLetter_of_isPlainLetter
    {letter : Char}
    (isPlain : isPlainLetter letter = true) :
    isWordLetter letter = true := by
  have isLower : letter.isLower = true := (Bool.and_eq_true_iff.mp isPlain).1
  have isNear : letter.toNat < 128 := by
    have below : letter.toNat ≤ 'z'.toNat :=
      of_decide_eq_true (Bool.and_eq_true_iff.mp isLower).2
    exact Nat.lt_of_le_of_lt below (by decide)
  have isSmall : isPlainLetter letter = true → isWordLetter letter = true :=
    of_toNat_lt isNear (by decide)
  exact isSmall isPlain

/-- The spellings of a word without the letter s are the forms of it. -/
theorem wordForms_of_isPlainLetter
    {word : List Char}
    (arePlain : word.all isPlainLetter = true) :
    wordForms word = spellings word := by
  induction word with
  | nil => rfl
  | cons letter word inductionHypothesis =>
      rw [List.all_cons, Bool.and_eq_true] at arePlain
      rw [wordForms, spellings, letterForms_of_isPlainLetter arePlain.1,
        inductionHypothesis arePlain.2]

/-- What is taken as a word is lowercased to one of its spellings. -/
theorem exists_spelling_of_scanWord?
    {word chars rest : List Char}
    (isTaken : scanWord? word chars = some rest)
    (arePlain : word.all isPlainLetter = true)
    (before : List Char) :
    lowerFrom before (chars.take (chars.length - rest.length)) ∈
      spellings word := by
  have areSmall : word.all isWordLetter = true :=
    List.all_eq_true.mpr fun letter isLetter =>
      isWordLetter_of_isPlainLetter (List.all_eq_true.mp arePlain letter isLetter)
  rw [← wordForms_of_isPlainLetter arePlain]
  exact mem_wordForms_of_scanWord? isTaken areSmall before

/-- The type that is read off a gradient function is one of nine texts. -/
theorem type_of_scanName?
    {chars name rest : List Char}
    (isTaken : scanName? chars = some (name, rest)) :
    String.ofList (lowerChars name) ∈ plainTypes.map Prod.fst ∨
      String.ofList (lowerChars name) ∈ dottedTypes := by
  have arePlain : types.all (fun type => type.toList.all isPlainLetter) = true := by
    decide
  have areTypes :
      ∀ type ∈ types,
        ∀ spelling ∈ spellings type.toList, String.ofList spelling ∈
          plainTypes.map Prod.fst ∨ String.ofList spelling ∈ dottedTypes := by
    decide
  unfold scanName? at isTaken
  obtain ⟨type, isType, isTaken⟩ := List.exists_of_findSome?_eq_some isTaken
  simp only [Option.bind_eq_bind, Option.bind_eq_some_iff, Option.pure_def,
    Option.some.injEq, Prod.mk.injEq] at isTaken
  obtain ⟨tail, isWord, _, _, _, _, rfl, _⟩ := isTaken
  exact areTypes type isType _
    (exists_spelling_of_scanWord? isWord
      (List.all_eq_true.mp arePlain type isType) [])

/-! Names that are read again. -/

/--
What is taken as a word in front of a hyphen is the whole name, if anything is.
-/
theorem scanWord?_hyphen
    {word name : List Char}
    (isShort : word.length ≤ name.length + 1)
    (tail : List Char) :
    scanWord? word (name ++ '-' :: tail) =
      (scanWord? word (name ++ ['-'])).map (· ++ tail) := by
  have isForm : name ++ '-' :: tail = (name ++ ['-']) ++ tail := by simp
  rw [isForm, scanWord?_append (by simpa using isShort)]

theorem gradient_append
    (rest : List Char) :
    "-gradient(".toList ++ rest = '-' :: ("gradient(".toList ++ rest) := by
  simp

/-- A name is read as the word that it is the lowercase form of. -/
theorem scanWord?_name
    {name type other : String}
    (isPlain : (name, type) ∈ plainTypes)
    (isType : other ∈ types)
    (rest : List Char) :
    scanWord? other.toList (name.toList ++ ("-gradient(".toList ++ rest)) =
      if other = type then some ("-gradient(".toList ++ rest) else none := by
  have areShort : ∀ entry ∈ plainTypes, ∀ other ∈ types,
      other.toList.length ≤ entry.1.toList.length + 1 := by
    decide
  have areRead : ∀ entry ∈ plainTypes, ∀ other ∈ types,
      scanWord? other.toList (entry.1.toList ++ ['-']) =
        if other = entry.2 then some ['-'] else none := by
    decide
  rw [gradient_append, scanWord?_hyphen (areShort _ isPlain other isType),
    areRead _ isPlain other isType]
  split <;> rfl

/-- A name with a dot of its own is read as no word. -/
theorem scanWord?_dottedName
    {name other : String}
    (isDotted : name ∈ dottedTypes)
    (isType : other ∈ types)
    (rest : List Char) :
    scanWord? other.toList (name.toList ++ ("-gradient(".toList ++ rest)) =
      none := by
  have areShort : ∀ name ∈ dottedTypes, ∀ other ∈ types,
      other.toList.length ≤ name.toList.length + 1 := by
    decide
  have areNone : ∀ name ∈ dottedTypes, ∀ other ∈ types,
      scanWord? other.toList (name.toList ++ ['-']) = none := by
    decide
  rw [gradient_append, scanWord?_hyphen (areShort name isDotted other isType),
    areNone name isDotted other isType]
  rfl

theorem scanName?_plain
    {name type : String}
    (isPlain : (name, type) ∈ plainTypes)
    (rest : List Char) :
    scanName? (name.toList ++ ("-gradient(".toList ++ rest)) =
      some (name.toList, rest) := by
  have areTypes : ∀ entry ∈ plainTypes, entry.2 ∈ types := by decide
  have isGradient : scanWord? "-gradient".toList ("-gradient(".toList ++ rest) =
      some ('(' :: rest) := by
    rw [gradient_append]
    rfl
  have isOpen : after? ['('] (skipBlank ('(' :: rest)) = some rest := rfl
  have isFront : (name.toList ++ ("-gradient(".toList ++ rest)).take
      ((name.toList ++ ("-gradient(".toList ++ rest)).length -
        ("-gradient(".toList ++ rest).length) = name.toList := by
    rw [List.length_append, Nat.add_sub_cancel, List.take_left]
  unfold scanName?
  -- One of the types is taken, and whichever it is, the name is what stands in
  -- front.
  cases isTaken : types.findSome? _ with
  | none =>
      rw [List.findSome?_eq_none_iff] at isTaken
      have noType := isTaken type (areTypes _ isPlain)
      rw [scanWord?_name isPlain (areTypes _ isPlain), if_pos rfl] at noType
      simp only [Option.bind_eq_bind, Option.bind_some, isGradient, isOpen,
        Option.pure_def] at noType
      cases noType
  | some found =>
      obtain ⟨other, isType, isTaken⟩ := List.exists_of_findSome?_eq_some isTaken
      rw [scanWord?_name isPlain isType] at isTaken
      split at isTaken
      · simp only [Option.bind_eq_bind, Option.bind_some, isGradient, isOpen,
          isFront, Option.pure_def] at isTaken
        exact isTaken.symm
      · cases isTaken

theorem scanName?_dotted
    {name : String}
    (isDotted : name ∈ dottedTypes)
    (rest : List Char) :
    scanName? (name.toList ++ ("-gradient(".toList ++ rest)) = none := by
  unfold scanName?
  rw [List.findSome?_eq_none_iff]
  intro type isType
  rw [scanWord?_dottedName isDotted isType]
  rfl

end DesignTokens.Gradient
