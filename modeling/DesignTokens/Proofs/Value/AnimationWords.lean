import DesignTokens.Proofs.Number.Decimals
import DesignTokens.Proofs.Number.NumeralValues
import DesignTokens.Proofs.Text.Blank
import DesignTokens.Proofs.Value.CurveSearch
import DesignTokens.Proofs.Value.Reading

namespace DesignTokens

/-!
# Words of animations

Each word of an animation fills a slot, and the first word that fits no slot is
the name.  An easing keyword fits its slot only while no easing has been found, so
it is the one kind of word whose slot depends on the words before it.  Each part
of an animation that was read is one that a word of its kind, or a curve, can
stand for: every word keeps it so, and so do all the words of the text.
-/

open DesignTokens.Text

/-- A time span ends with the letter that ends its unit. -/
theorem Duration.getLast?_of_isExplicit
    {chars : List Char}
    (explicit : isExplicit chars = true) :
    chars.getLast? = some 's' := by
  have inUnit : ∀ unit ∈ [['m', 's'], ['s']], unit.getLast? = some 's' := by decide
  obtain ⟨numeral, unit, _, isUnit, rfl⟩ := exists_numeral_of_isExplicit explicit
  rw [List.getLast?_append, inUnit unit isUnit]
  rfl

/-! Whole numbers that are written and read again. -/

namespace Number

theorem allDigitLike_digits
    (count : Nat) :
    allDigitLike (Decimal.digits count) = true := by
  have areDigits : ∀ c ∈ Decimal.digits count, isDigitLike c = true := by
    intro c isMember
    rw [isDigitLike, isDecimal_of_isDigit (Decimal.isDigit_of_mem_digits isMember)]
    rfl
  simpa [allDigitLike, Decimal.digits_ne_nil] using areDigits

/-- A number with few enough digits is read again from them. -/
theorem readInt?_digits
    {count : Nat}
    (isShort : Decimal.width count ≤ maxWholeDigits) :
    readInt? (String.ofList (Decimal.digits count)) = some (Int.ofNat count) := by
  have areDecimal : (Decimal.digits count).all isDecimal = true :=
    List.all_eq_true.mpr fun c isMember =>
      isDecimal_of_isDigit (Decimal.isDigit_of_mem_digits isMember)
  have notLong : ¬ maxWholeDigits < (Decimal.digits count).length :=
    Nat.not_lt.mpr isShort
  rw [readInt?_of_digitLike (allDigitLike_digits count), digitsValue_digits]
  simp [areDecimal, notLong]

/-- A whole number that was read from digits has no more digits than these. -/
theorem exists_of_readInt?
    {chars : List Char}
    (digitLike : allDigitLike chars = true)
    {whole : Int}
    (isRead : readInt? (String.ofList chars) = some whole) :
    ∃ count : Nat, whole = Int.ofNat count ∧
      Decimal.width count ≤ maxWholeDigits := by
  rw [readInt?_of_digitLike digitLike] at isRead
  split at isRead
  · cases isRead
  · rename_i readable
    have isShort : chars.length ≤ maxWholeDigits := by
      simp only [Bool.or_eq_true, decide_eq_true_eq, not_or] at readable
      exact Nat.not_lt.mp readable.2
    refine ⟨digitsValue chars, (Option.some.inj isRead).symm, le_trans ?_ isShort⟩
    have isThere : 0 < chars.length := by
      rw [List.length_pos_iff]
      rintro rfl
      cases digitLike
    rcases Nat.eq_zero_or_pos (digitsValue chars) with isZero | isPositive
    · rw [isZero]
      exact isThere
    · have isAbove := (Decimal.width_bounds isPositive).1
      have isLess :=
        (Nat.pow_lt_pow_iff_right (by decide)).mp
          (isAbove.trans_lt (digitsValue_lt chars))
      omega

end Number

namespace Animation

/-! Slots. -/

/-- The words that fill a slot by themselves, easing keywords aside. -/
def slotWords : List String :=
  "infinite" :: (directions ++ fillModes ++ playStates)

/-- A word that fits no slot, that of the easing aside. -/
structure FitsNowhere (chars : List Char) : Prop where
  notSpan : Duration.isExplicit chars = false
  notCount : allDigitLike chars = false
  notListed : String.ofList chars ∉ slotWords

theorem addWord_of_fitsNowhere
    {found : Found}
    {chars : List Char}
    (fits : FitsNowhere chars)
    (hasEasing : String.ofList chars ∈ Timing.keywords →
      found.timing?.isSome = true) :
    found.addWord chars =
      .ok (if found.name = "" then { found with name := String.ofList chars }
      else found) := by
  have noEasing :
      ¬ (String.ofList chars ∈ Timing.keywords ∧ found.timing?.isNone = true) := by
    rintro ⟨isListed, isNone⟩
    have isThere := hasEasing isListed
    rw [Option.isNone_iff_eq_none.mp isNone] at isThere
    cases isThere
  have notListed := fits.notListed
  simp only [slotWords, List.mem_cons, List.mem_append, not_or] at notListed
  obtain ⟨notInfinite, ⟨noDirection, noFillMode⟩, noPlayState⟩ := notListed
  unfold Found.addWord
  simp only [fits.notSpan, notInfinite, fits.notCount, List.contains_eq_mem,
    noDirection, noFillMode, noPlayState, Bool.and_eq_true, decide_eq_true_eq,
    noEasing, Bool.false_eq_true, if_false, decide_false]
  split
  · rfl
  · rfl

/--
What becomes of what has been found with a word more, by the slot
that the word fills.
-/
inductive Found.Takes (found : Found) (chars : List Char) : Found → Prop
  | span {duration : Duration} :
      Duration.ofChars? chars = some duration →
      Takes found chars { found with durations := found.durations ++ [duration] }
  | easing :
      String.ofList chars ∈ Timing.keywords →
      Takes found chars { found with
        timing? := some (.keyword (String.ofList chars)) }
  | endless :
      String.ofList chars = "infinite" →
      Takes found chars { found with iterationCount := .str (String.ofList chars) }
  | count {count : Int} :
      allDigitLike chars = true →
      Number.readInt? (String.ofList chars) = some count →
      Takes found chars { found with iterationCount := .int count }
  | direction :
      String.ofList chars ∈ directions →
      Takes found chars { found with direction := .str (String.ofList chars) }
  | fillMode :
      String.ofList chars ∈ fillModes →
      Takes found chars { found with fillMode := .str (String.ofList chars) }
  | playState :
      String.ofList chars ∈ playStates →
      Takes found chars { found with playState := .str (String.ofList chars) }
  | name :
      FitsNowhere chars →
      (String.ofList chars ∈ Timing.keywords → found.timing?.isSome = true) →
      Takes found chars { found with name := String.ofList chars }
  /--
  A time span that cannot be read, and a word that fits nowhere behind the name.
  -/
  | leave :
      Takes found chars found

theorem Found.takes_of_addWord
    {found next : Found}
    {chars : List Char}
    (isNext : found.addWord chars = .ok next) :
    found.Takes chars next := by
  unfold Found.addWord at isNext
  simp only [List.contains_iff_mem, Bool.and_eq_true] at isNext
  split at isNext
  · split at isNext
    · rename_i duration isSpan
      cases isNext
      exact .span isSpan
    · cases isNext
      exact .leave
  rename_i notSpan
  split at isNext
  · rename_i isEasing
    cases isNext
    exact .easing isEasing.1
  rename_i noEasing
  split at isNext
  · rename_i isInfinite
    cases isNext
    exact .endless isInfinite
  rename_i notInfinite
  split at isNext
  · rename_i digitLike
    split at isNext
    · rename_i count isRead
      cases isNext
      exact .count digitLike isRead
    · cases isNext
  rename_i notCount
  split at isNext
  · rename_i isListed
    cases isNext
    exact .direction isListed
  rename_i noDirection
  split at isNext
  · rename_i isListed
    cases isNext
    exact .fillMode isListed
  rename_i noFillMode
  split at isNext
  · rename_i isListed
    cases isNext
    exact .playState isListed
  rename_i noPlayState
  split at isNext
  · cases isNext
    -- All slots have refused the word, that of the easing perhaps because it is
    -- filled.
    apply Takes.name
    · refine ⟨by simpa using notSpan, by simpa using notCount, ?_⟩
      simp [slotWords, notInfinite, noDirection, noFillMode, noPlayState]
    · intro isListed
      rw [not_and] at noEasing
      exact Option.isSome_iff_ne_none.mpr (by simpa using noEasing isListed)
  · cases isNext
    exact .leave

theorem addWord_of_isExplicit
    (found : Found)
    {chars : List Char}
    (explicit : Duration.isExplicit chars = true) :
    ∃ durations, found.addWord chars =
      .ok { found with durations := durations } := by
  unfold Found.addWord
  simp only [explicit, if_true]
  split
  · exact ⟨_, rfl⟩
  · exact ⟨found.durations, rfl⟩

theorem addWord_keyword
    {found : Found}
    {keyword : String}
    (isListed : keyword ∈ Timing.keywords)
    (noEasing : found.timing? = none) :
    found.addWord keyword.toList =
      .ok { found with timing? := some (.keyword keyword) } := by
  have notSpan :
      ∀ keyword ∈ Timing.keywords, Duration.isExplicit keyword.toList = false := by
    decide
  unfold Found.addWord
  simp [notSpan keyword isListed, String.ofList_toList, isListed, noEasing]

theorem addWord_count
    (found : Found)
    {count : Nat}
    (isShort : Number.Decimal.width count ≤ Number.maxWholeDigits) :
    found.addWord (Number.Decimal.digits count) =
      .ok { found with iterationCount := .int (Int.ofNat count) } := by
  have digitLike := Number.allDigitLike_digits count
  have notSpan : Duration.isExplicit (Number.Decimal.digits count) = false :=
    Duration.isExplicit_of_digits fun c isMember =>
      List.all_eq_true.mp (Bool.and_eq_true_iff.mp digitLike).2 c isMember
  have isText : allDigitLike (String.ofList (Number.Decimal.digits count)).toList =
      true := by
    rwa [String.toList_ofList]
  have noKeyword : String.ofList (Number.Decimal.digits count) ∉ Timing.keywords :=
    not_mem_of_digits isText (by decide)
  have notInfinite : String.ofList (Number.Decimal.digits count) ∉ ["infinite"] :=
    not_mem_of_digits isText (by decide)
  rw [List.mem_singleton] at notInfinite
  unfold Found.addWord
  simp [notSpan, noKeyword, notInfinite, digitLike, Number.readInt?_digits isShort]

/-- A listed word fills the first slot whose list it is in. -/
theorem addWord_listed
    (found : Found)
    {word : String}
    (isListed : word ∈ slotWords) :
    found.addWord word.toList =
      .ok (if word = "infinite" then { found with iterationCount := .str word }
        else if word ∈ directions then { found with direction := .str word }
        else if word ∈ fillModes then { found with fillMode := .str word }
        else { found with playState := .str word }) := by
  have others : ∀ word ∈ slotWords, Duration.isExplicit word.toList = false ∧
      word ∉ Timing.keywords ∧ allDigitLike word.toList = false := by
    decide
  obtain ⟨notSpan, noKeyword, notCount⟩ := others word isListed
  unfold Found.addWord
  simp only [notSpan, notCount, String.ofList_toList, List.contains_eq_mem,
    noKeyword, Bool.false_eq_true, if_false, decide_false, Bool.false_and,
    decide_eq_true_eq]
  split
  · rfl
  split
  · rfl
  split
  · rfl
  split
  · rfl
  · rename_i notInfinite noDirection noFillMode noPlayState
    simp [slotWords, notInfinite, noDirection, noFillMode, noPlayState] at isListed

/-! Words one after the other. -/

/-- What has been found, with other time spans. -/
def Found.withSpans (found : Found) (durations : List Duration) : Found :=
  { found with durations := durations }

/--
Words that make one finding out of another, whatever time spans
come with the two.
-/
def Leads (found : Found) (words : List (List Char)) (target : Found) : Prop :=
  ∀ durations, ∃ longer,
    words.foldlM Found.addWord (found.withSpans durations) =
      .ok (target.withSpans longer)

theorem leads_nil
    (found : Found) :
    Leads found [] found :=
  fun durations => ⟨durations, rfl⟩

theorem Leads.append
    {found middle target : Found}
    {first later : List (List Char)}
    (leadsFirst : Leads found first middle)
    (leadsLater : Leads middle later target) :
    Leads found (first ++ later) target := by
  intro durations
  obtain ⟨between, isFirst⟩ := leadsFirst durations
  obtain ⟨longer, isLater⟩ := leadsLater between
  exact ⟨longer, by rw [List.foldlM_append, isFirst, ok_bind, isLater]⟩

theorem leads_singleton
    {found target : Found}
    {chars : List Char}
    (step : ∀ durations, ∃ longer,
      (found.withSpans durations).addWord chars = .ok (target.withSpans longer)) :
    Leads found [chars] target := by
  intro durations
  obtain ⟨longer, isNext⟩ := step durations
  exact ⟨longer, by rw [List.foldlM_cons, isNext, ok_bind]; rfl⟩

section Steps

variable {found : Found} {chars : List Char}

theorem leads_name
    (fits : FitsNowhere chars)
    (hasEasing : String.ofList chars ∈ Timing.keywords →
      found.timing?.isSome = true)
    (noName : found.name = "") :
    Leads found [chars] { found with name := String.ofList chars } := by
  refine leads_singleton fun durations => ⟨durations, ?_⟩
  have step : (found.withSpans durations).addWord chars = _ :=
    addWord_of_fitsNowhere fits hasEasing
  rw [step, if_pos (show (found.withSpans durations).name = "" from noName)]
  rfl

/-- A word that fits nowhere is left out once there is a name. -/
theorem leads_ignored
    (fits : FitsNowhere chars)
    (noKeyword : String.ofList chars ∉ Timing.keywords)
    (hasName : found.name ≠ "") :
    Leads found [chars] found := by
  refine leads_singleton fun durations => ⟨durations, ?_⟩
  have step : (found.withSpans durations).addWord chars = _ :=
    addWord_of_fitsNowhere fits fun isListed => (noKeyword isListed).elim
  rw [step, if_neg (show (found.withSpans durations).name ≠ "" from hasName)]

theorem leads_span
    (explicit : Duration.isExplicit chars = true) :
    Leads found [chars] found :=
  leads_singleton fun _ => addWord_of_isExplicit _ explicit

theorem leads_keyword
    {keyword : String}
    (isListed : keyword ∈ Timing.keywords)
    (noEasing : found.timing? = none) :
    Leads found [keyword.toList] { found with
      timing? := some (.keyword keyword) } :=
  leads_singleton fun durations => ⟨durations, addWord_keyword isListed noEasing⟩

/-- A keyword that comes behind another easing is the name, if there is none. -/
theorem leads_keyword_as_name
    {keyword : String}
    (isListed : keyword ∈ Timing.keywords)
    (hasEasing : found.timing?.isSome = true)
    (noName : found.name = "") :
    Leads found [keyword.toList] { found with name := keyword } := by
  have fitNowhere :
      ∀ keyword ∈ Timing.keywords, Duration.isExplicit keyword.toList = false ∧
        allDigitLike keyword.toList = false ∧ keyword ∉ slotWords := by
    decide
  obtain ⟨notSpan, notCount, notListed⟩ := fitNowhere keyword isListed
  have isName := leads_name ⟨notSpan, notCount, by rwa [String.ofList_toList]⟩
    (fun _ => hasEasing) noName
  rwa [String.ofList_toList] at isName

end Steps

/-! Slots that a document can leave out. -/

/-- Null, or one of the listed words. -/
def IsChoice (listed : List String) (value : Wire) : Prop :=
  value = .null ∨ ∃ word ∈ listed, value = .str word

/-- Null, the word for no end, or a number that can be read. -/
def IsCount (value : Wire) : Prop :=
  value = .null ∨ value = .str "infinite" ∨
    ∃ count : Nat, value = .int (Int.ofNat count) ∧
      Number.Decimal.width count ≤ Number.maxWholeDigits

/-- The words that are written for the slots that are there. -/
def slotTexts (values : List Wire) : List (List Char) :=
  (present values).map (fun value => value.display.toList)

theorem slotTexts_cons
    (value : Wire)
    (rest : List Wire) :
    slotTexts (value :: rest) = slotTexts [value] ++ slotTexts rest := by
  simp only [slotTexts, present, ← List.map_append, ← List.filter_append,
    List.cons_append, List.nil_append]

section Slots

variable {found : Found} {value : Wire}

theorem toList_display_count
    (count : Nat) :
    (Wire.int (Int.ofNat count)).display.toList = Number.Decimal.digits count := by
  have notNegative : decide (Int.ofNat count < 0) = false := by simp
  rw [Wire.display, Wire.quoted, Number.intText, notNegative,
    Number.toList_withSign]
  · rfl
  · exact fun _ isText => Wire.noConfusion isText

theorem leads_count
    (isCount : IsCount value)
    (noCount : found.iterationCount = .null) :
    Leads found (slotTexts [value]) { found with iterationCount := value } := by
  rcases isCount with rfl | rfl | ⟨count, rfl, isShort⟩
  · have isSame : { found with iterationCount := Wire.null } = found :=
      by rw [← noCount]
    rw [isSame]
    exact leads_nil found
  · exact leads_singleton fun durations => ⟨durations, addWord_listed _ (by decide)⟩
  · have isText : slotTexts [.int (Int.ofNat count)] =
        [Number.Decimal.digits count] :=
      congrArg (fun text => [text]) (toList_display_count count)
    rw [isText]
    exact leads_singleton fun durations => ⟨durations, addWord_count _ isShort⟩

/-- A listed word is written as such. -/
theorem leads_choice
    {listed : List String}
    (fill : Wire → Found)
    (isChoice : IsChoice listed value)
    (noChoice : fill .null = found)
    (step : ∀ word ∈ listed, Leads found [word.toList] (fill (.str word))) :
    Leads found (slotTexts [value]) (fill value) := by
  rcases isChoice with rfl | ⟨word, isListed, rfl⟩
  · rw [noChoice]
    exact leads_nil found
  · exact step word isListed

theorem leads_direction
    (isChoice : IsChoice directions value)
    (noDirection : found.direction = .null) :
    Leads found (slotTexts [value]) { found with direction := value } := by
  have others : ∀ word ∈ directions, word ∈ slotWords ∧ word ≠ "infinite" := by
    decide
  refine leads_choice (fun value => { found with direction := value }) isChoice
    (by rw [← noDirection]) fun word isListed => ?_
  obtain ⟨isSlotWord, notInfinite⟩ := others word isListed
  refine leads_singleton fun durations =>
    ⟨durations, (addWord_listed _ isSlotWord).trans ?_⟩
  rw [if_neg notInfinite, if_pos isListed]
  rfl

theorem leads_fillMode
    (isChoice : IsChoice fillModes value)
    (noFillMode : found.fillMode = .null) :
    Leads found (slotTexts [value]) { found with fillMode := value } := by
  have others : ∀ word ∈ fillModes, word ∈ slotWords ∧ word ≠ "infinite" ∧
      word ∉ directions := by
    decide
  refine leads_choice (fun value => { found with fillMode := value }) isChoice
    (by rw [← noFillMode]) fun word isListed => ?_
  obtain ⟨isSlotWord, notInfinite, noDirection⟩ := others word isListed
  refine leads_singleton fun durations =>
    ⟨durations, (addWord_listed _ isSlotWord).trans ?_⟩
  rw [if_neg notInfinite, if_neg noDirection, if_pos isListed]
  rfl

theorem leads_playState
    (isChoice : IsChoice playStates value)
    (noPlayState : found.playState = .null) :
    Leads found (slotTexts [value]) { found with playState := value } := by
  have others : ∀ word ∈ playStates, word ∈ slotWords ∧ word ≠ "infinite" ∧
      word ∉ directions ∧ word ∉ fillModes := by
    decide
  refine leads_choice (fun value => { found with playState := value }) isChoice
    (by rw [← noPlayState]) fun word isListed => ?_
  obtain ⟨isSlotWord, notInfinite, noDirection, noFillMode⟩ := others word isListed
  refine leads_singleton fun durations =>
    ⟨durations, (addWord_listed _ isSlotWord).trans ?_⟩
  rw [if_neg notInfinite, if_neg noDirection, if_neg noFillMode]
  rfl

end Slots

/-! Parts that were read. -/

/-- A time span as it is read: no negative number, and a unit of time. -/
def IsSpan (duration : Duration) : Prop :=
  ∃ value unit, duration = ⟨.float value, .str unit⟩ ∧ unit ∈ Duration.units ∧
    Number.hasSignBit value = false

/-- An easing as it is read: a keyword, or a curve whose coordinates are numbers. -/
def IsEasing (timing : Timing) : Prop :=
  (∃ keyword ∈ Timing.keywords, timing = .keyword keyword) ∨
    ∃ x1 y1 x2 y2, timing = .curve ⟨.float x1, .float y1, .float x2, .float y2⟩

/--
A name as it is read: a word that fits nowhere, or a keyword when there
is another easing.
-/
structure IsName (timing? : Option Timing) (name : String) : Prop where
  isThere : name.toList ≠ []
  ink : ∀ c ∈ name.toList, isBlank c = false
  fits : FitsNowhere name.toList
  hasEasing : name ∈ Timing.keywords → timing?.isSome = true

/-- What has been found holds parts as they are read. -/
structure Found.Readable (found : Found) : Prop where
  name : found.name = "" ∨ IsName found.timing? found.name
  durations : ∀ duration ∈ found.durations, IsSpan duration
  easing : ∀ timing, found.timing? = some timing → IsEasing timing
  count : IsCount found.iterationCount
  direction : IsChoice directions found.direction
  fillMode : IsChoice fillModes found.fillMode
  playState : IsChoice playStates found.playState

theorem isSpan_of_ofChars?
    {chars : List Char}
    {duration : Duration}
    (isRead : Duration.ofChars? chars = some duration) :
    IsSpan duration := by
  obtain ⟨value, unit, isForm, isListed, notNegative⟩ :=
    Duration.exists_of_ofChars? isRead
  exact ⟨value, unit, isForm, isListed, notNegative⟩

theorem isName_of_word
    {timing? : Option Timing}
    {chars : List Char}
    (isWord : chars ≠ [] ∧ ∀ c ∈ chars, isBlank c = false)
    (fits : FitsNowhere chars)
    (hasEasing : String.ofList chars ∈ Timing.keywords → timing?.isSome = true) :
    IsName timing? (String.ofList chars) := by
  rw [← String.toList_ofList (l := chars)] at isWord fits
  exact ⟨isWord.1, isWord.2, fits, hasEasing⟩

/-- What is readable stays so with a word more. -/
theorem Found.Readable.addWord
    {found next : Found}
    {chars : List Char}
    (isWord : chars ≠ [] ∧ ∀ c ∈ chars, isBlank c = false)
    (isNext : found.addWord chars = .ok next)
    (readable : found.Readable) :
    next.Readable := by
  cases Found.takes_of_addWord isNext with
  | span isSpan =>
      have areSpans := List.forall_mem_append.mpr
        ⟨readable.durations,
          List.forall_mem_singleton.mpr (isSpan_of_ofChars? isSpan)⟩
      exact { readable with durations := areSpans }
  | easing isListed =>
      have isKeyword : IsEasing (.keyword (String.ofList chars)) :=
        .inl ⟨_, isListed, rfl⟩
      refine { readable with name := ?_, easing := ?_ }
      · exact readable.name.imp_right fun isName =>
          { isName with hasEasing := fun _ => rfl }
      · rintro timing ⟨⟩
        exact isKeyword
  | endless isInfinite =>
      exact { readable with count := .inr (.inl (by rw [isInfinite])) }
  | count digitLike isRead =>
      obtain ⟨count, rfl, isShort⟩ := Number.exists_of_readInt? digitLike isRead
      exact { readable with count := .inr (.inr ⟨count, rfl, isShort⟩) }
  | direction isListed =>
      exact { readable with direction := .inr ⟨_, isListed, rfl⟩ }
  | fillMode isListed =>
      exact { readable with fillMode := .inr ⟨_, isListed, rfl⟩ }
  | playState isListed =>
      exact { readable with playState := .inr ⟨_, isListed, rfl⟩ }
  | name fits hasEasing =>
      exact { readable with name := .inr (isName_of_word isWord fits hasEasing) }
  | leave => exact readable

/-- An animation holds parts as they are read. -/
structure IsReadable (animation : Animation) : Prop where
  name : ∃ name, animation.name = .str name ∧ IsName animation.timing? name
  duration : IsSpan animation.duration
  easing : ∀ timing, animation.timing? = some timing → IsEasing timing
  delay : ∀ delay, animation.delay? = some delay → IsSpan delay
  count : IsCount animation.iterationCount
  direction : IsChoice directions animation.direction
  fillMode : IsChoice fillModes animation.fillMode
  playState : IsChoice playStates animation.playState

/-- An animation that was read holds parts as they are read. -/
theorem isReadable_of_parse
    {raw : String}
    {animation : Animation}
    (isRead : parse raw = .ok (some animation)) :
    animation.IsReadable := by
  unfold parse at isRead
  obtain ⟨found, areTaken, afterWords⟩ := bind_eq_ok_iff.mp isRead
  have isStart :
      Found.Readable
        ⟨"", [], (takeCurve (trimChars raw.toList)).curve?.map Timing.curve, .null,
          .null, .null, .null⟩ := by
    refine ⟨.inl rfl, List.forall_mem_nil _, fun timing isThere => ?_, .inl rfl,
      .inl rfl, .inl rfl, .inl rfl⟩
    obtain ⟨curve, isCurve, rfl⟩ := Option.map_eq_some_iff.mp isThere
    unfold takeCurve at isCurve
    split at isCurve
    · obtain ⟨x1, y1, x2, y2, rfl⟩ := CubicBezier.exists_of_ofCoordinates? isCurve
      exact .inr ⟨x1, y1, x2, y2, rfl⟩
    · cases isCurve
  have readable : found.Readable :=
    holds_of_foldlM_of_mem
      (fun chars isListed _ _ isNext =>
        Found.Readable.addWord (ink_of_mem_words isListed) isNext)
      isStart areTaken
  split at afterWords
  · cases pure_eq_ok_iff.mp afterWords
  · rename_i hasName
    obtain rfl := Option.some.inj (pure_eq_ok_iff.mp afterWords)
    have isZero : IsSpan ⟨.float 0.0, .str "ms"⟩ :=
      ⟨0.0, "ms", rfl, List.mem_cons_self, by decide⟩
    refine ⟨⟨found.name, rfl, readable.name.resolve_left hasName⟩, ?_,
      readable.easing, ?_, readable.count, readable.direction, readable.fillMode,
      readable.playState⟩
    · cases isFirst : found.durations[0]? with
      | none => exact isZero
      | some duration => exact readable.durations _ (List.mem_of_getElem? isFirst)
    · exact fun delay isThere => readable.durations _ (List.mem_of_getElem? isThere)

end Animation

end DesignTokens
