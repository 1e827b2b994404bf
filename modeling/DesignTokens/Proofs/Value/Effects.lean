import DesignTokens.Proofs.Color.Forms
import DesignTokens.Proofs.Text.Depth
import DesignTokens.Proofs.Value.Pairs
import DesignTokens.Registry.Composite

namespace DesignTokens

/-!
# Printed effects

The layers of a shadow are printed as constructors with a type, a color, two
offsets in parentheses, a radius and possibly a spread.  Three scanners read the
same constructor, for its named parts, its color and its offsets, and none of
them is misled by what the others take.
-/

open DesignTokens.Text
open DesignTokens.Number (PlainNumeral)

/-- A layer that can be printed. -/
structure EffectLayer where
  type : String
  /-- The hexadecimal digits of the color. -/
  digits : List Char
  offsetX : PlainNumeral
  offsetY : PlainNumeral
  radius : PlainNumeral
  spread? : Option PlainNumeral
  isTyped : type ≠ ""
  typeChars : ∀ c ∈ type.toList, isWord c = true
  hexDigits : ∀ c ∈ digits, Color.isHexDigit c = true
  colorLength : digits.length ∈ [3, 4, 6, 8]

namespace EffectLayer

/-- The spread as it is printed, if there is one. -/
def spreadText (layer : EffectLayer) : String :=
  match layer.spread? with
  | some spread => ", spread: " ++ String.ofList spread.text
  | none => ""

/-- The color as it is printed. -/
def colorText (layer : EffectLayer) : String :=
  String.ofList ('#' :: layer.digits)

/-- The layer as it is printed. -/
def text (layer : EffectLayer) : String :=
  "Effect(type: " ++ layer.type ++ ", color: " ++ layer.colorText ++
    ", offset: (" ++ String.ofList layer.offsetX.text ++ ", " ++
    String.ofList layer.offsetY.text ++ "), radius: " ++
    String.ofList layer.radius.text ++
    layer.spreadText ++ ")"

/-- Layers as they are printed, with commas between them. -/
def printed (layers : List EffectLayer) : String :=
  joinWith ", " (layers.map text)

/-- A shadow with the offsets, blur, spread, color and kind of a printed layer. -/
structure IsReadAs (layer : EffectLayer) (shadow : Shadow) : Prop where
  offsetX : shadow.offsetX = ⟨.float layer.offsetX.value, .str "px"⟩
  offsetY : shadow.offsetY = ⟨.float layer.offsetY.value, .str "px"⟩
  blur : shadow.blur = ⟨.float layer.radius.value, .str "px"⟩
  spread :
    shadow.spread? =
      layer.spread?.map (fun spread => ⟨.float spread.value, .str "px"⟩)
  color : Color.parseHex layer.colorText = some shadow.color
  inset : shadow.inset = .bool (decide (layer.type = "INNER_SHADOW"))

/-! The parts of a layer. -/

/-- What stands behind the radius. -/
def spreadChars (layer : EffectLayer) : List Char :=
  match layer.spread? with
  | some spread => ',' :: ' ' :: ("spread".toList ++ ':' :: ' ' :: spread.text)
  | none => []

/-- What stands behind the offsets. -/
def radiusChars (layer : EffectLayer) : List Char :=
  "radius".toList ++ ':' :: ' ' :: (layer.radius.text ++ layer.spreadChars)

/-- The two offsets. -/
def offsets (layer : EffectLayer) : List Char :=
  layer.offsetX.text ++ ',' :: ' ' :: layer.offsetY.text

/-- What stands behind the color. -/
def offsetChars (layer : EffectLayer) : List Char :=
  "offset".toList ++ ':' :: ' ' :: '(' ::
    (layer.offsets ++ ')' :: ',' :: ' ' :: layer.radiusChars)

/-- What stands behind the type. -/
def colorChars (layer : EffectLayer) : List Char :=
  "color".toList ++ ':' :: ' ' :: '#' ::
    (layer.digits ++ ',' :: ' ' :: layer.offsetChars)

/-- What stands between the parentheses of a layer. -/
def body (layer : EffectLayer) : List Char :=
  "type".toList ++ ':' :: ' ' ::
    (layer.type.toList ++ ',' :: ' ' :: layer.colorChars)

variable {layer : EffectLayer}

theorem text_eq
    (layer : EffectLayer) :
    layer.text = "Effect" ++ "(" ++ String.ofList layer.body ++ ")" := by
  have typeMark : "Effect(type: ".toList =
      "Effect(".toList ++ ("type".toList ++ [':', ' ']) := by simp
  have colorMark :
      ", color: ".toList = ',' :: ' ' :: ("color".toList ++ [':', ' ']) := by simp
  have offsetMark : ", offset: (".toList =
      ',' :: ' ' :: ("offset".toList ++ [':', ' ', '(']) := by simp
  have radiusMark : "), radius: ".toList =
      ')' :: ',' :: ' ' :: ("radius".toList ++ [':', ' ']) := by simp
  have spreadMark :
      ", spread: ".toList = ',' :: ' ' :: ("spread".toList ++ [':', ' ']) := by simp
  have commaMark : ", ".toList = [',', ' '] := by simp
  have isSpread : layer.spreadText.toList = layer.spreadChars := by
    unfold spreadText spreadChars
    cases layer.spread? with
    | none => rfl
    | some spread =>
        simp only [String.toList_append, String.toList_ofList, spreadMark,
          List.cons_append, List.append_assoc, List.nil_append]
  rw [← String.toList_inj]
  unfold text body colorChars offsetChars offsets radiusChars colorText
  simp only [String.toList_append, String.toList_ofList, typeMark, colorMark,
    offsetMark, radiusMark, commaMark, isSpread, List.append_assoc,
    List.cons_append, List.nil_append]
  rfl

/-! Characters of a layer. -/

theorem not_mem_type
    (layer : EffectLayer)
    {c : Char}
    (isOther : isWord c = false) :
    c ∉ layer.type.toList := by
  intro isMember
  cases (layer.typeChars c isMember).symm.trans isOther

theorem not_mem_digits
    (layer : EffectLayer)
    {c : Char}
    (isOther : Color.isHexDigit c = false) :
    c ∉ layer.digits := by
  intro isMember
  cases (layer.hexDigits c isMember).symm.trans isOther

theorem not_mem_spreadChars
    (layer : EffectLayer)
    {c : Char}
    (isOther : Number.isNumeralChar c = false)
    (noMark : c ∉ ", spread: ".toList) :
    c ∉ layer.spreadChars := by
  unfold spreadChars
  cases layer.spread? with
  | none => exact List.not_mem_nil
  | some spread =>
      have noNumeral : c ∉ spread.text := PlainNumeral.not_mem_text isOther
      simp at noMark ⊢
      simp [noMark, noNumeral]

/-- The only parentheses of a layer stand around its offsets. -/
theorem inner_body
    (layer : EffectLayer) :
    Inner layer.body := by
  have noNumeral (numeral : PlainNumeral) :
      '(' ∉ numeral.text ∧ ')' ∉ numeral.text :=
    ⟨PlainNumeral.not_mem_text (by decide), PlainNumeral.not_mem_text (by decide)⟩
  have noType : '(' ∉ layer.type.toList ∧ ')' ∉ layer.type.toList :=
    ⟨layer.not_mem_type (by decide), layer.not_mem_type (by decide)⟩
  have noDigit : '(' ∉ layer.digits ∧ ')' ∉ layer.digits :=
    ⟨layer.not_mem_digits (by decide), layer.not_mem_digits (by decide)⟩
  have noSpread : '(' ∉ layer.spreadChars ∧ ')' ∉ layer.spreadChars :=
    ⟨layer.not_mem_spreadChars (by decide) (by decide),
      layer.not_mem_spreadChars (by decide) (by decide)⟩
  let front := "type".toList ++ ':' :: ' ' :: (layer.type.toList ++ ',' :: ' ' ::
    ("color".toList ++ ':' :: ' ' :: '#' :: (layer.digits ++ ',' :: ' ' ::
      ("offset".toList ++ [':', ' ']))))
  let back := ',' :: ' ' :: layer.radiusChars
  have isForm : layer.body =
      front ++ ('(' :: (layer.offsets ++ [')']) ++ back) := by
    unfold body colorChars offsetChars
    simp [front, back]
  have frontFlat : Flat front := by
    constructor
    · simp [front, noType, noDigit]
    · simp [front, noType, noDigit]
  have offsetsFlat : Flat layer.offsets := by
    constructor
    · simp [offsets, noNumeral]
    · simp [offsets, noNumeral]
  have backFlat : Flat back := by
    unfold back radiusChars
    constructor
    · simp [noNumeral, noSpread]
    · simp [noNumeral, noSpread]
  rw [isForm]
  exact frontFlat.inner.append
    (offsetsFlat.inner.parenthesized.append backFlat.inner)

theorem toList_text
    (layer : EffectLayer) :
    layer.text.toList = "Effect".toList ++ '(' :: (layer.body ++ [')']) := by
  rw [text_eq]
  simp

theorem whole_text
    (layer : EffectLayer) :
    Whole depthAfter layer.text.toList := by
  rw [toList_text]
  exact layer.inner_body.whole ⟨by decide, by decide⟩ (by decide)

theorem toList_printed_cons
    (first : EffectLayer)
    (rest : List EffectLayer) :
    (printed (first :: rest)).toList =
      first.text.toList ++
        (rest.map (fun layer => layer.text.toList)).flatMap
          (fun piece => ',' :: ' ' :: piece) := by
  rw [printed, List.map_cons, toList_joinWith_cons, List.flatMap_map,
    List.flatMap_map]
  simp

/-- Printed layers begin with the name of an effect and end with its parenthesis. -/
theorem exists_inside_printed
    {layers : List EffectLayer}
    (nonempty : layers ≠ []) :
    ∃ inside, (printed layers).toList = "Effect(".toList ++ (inside ++ [')']) := by
  obtain ⟨first, rest, rfl⟩ := List.exists_cons_of_ne_nil nonempty
  rw [toList_printed_cons, toList_text]
  rcases List.eq_nil_or_concat rest with rfl | ⟨front, last, rfl⟩
  · exact ⟨first.body, by simp⟩
  · rw [List.concat_eq_append, List.map_append, List.flatMap_append,
      List.map_singleton, List.flatMap_singleton, toList_text]
    exact ⟨first.body ++ [')'] ++
      ((front.map (fun layer => layer.text.toList)).flatMap
        (fun piece => ',' :: ' ' :: piece) ++ ',' :: ' ' ::
          ("Effect".toList ++ '(' :: last.body)), by simp⟩

/-- Printed layers are cut into the layers. -/
theorem splitLayers_printed
    {layers : List EffectLayer}
    (nonempty : layers ≠ []) :
    splitLayers (printed layers) = layers.map text := by
  have trimmed (layer : EffectLayer) :
      trimChars layer.text.toList = layer.text.toList ∧
        trimChars (' ' :: layer.text.toList) = layer.text.toList := by
    have isTrimmed : Trimmed layer.text.toList := by
      rw [toList_text]
      constructor
      · rintro c ⟨⟩
        decide
      · intro c isLast
        rw [List.getLast?_append, List.getLast?_cons] at isLast
        obtain rfl : ')' = c := by simpa using isLast
        decide
    refine ⟨isTrimmed.trimChars_eq, ?_⟩
    rw [trimChars_space, isTrimmed.trimChars_eq]
  obtain ⟨first, rest, rfl⟩ := List.exists_cons_of_ne_nil nonempty
  have restWhole : ∀ piece ∈ rest.map (fun layer => layer.text.toList),
      Whole depthAfter piece := by
    intro piece isPiece
    obtain ⟨layer, _, rfl⟩ := List.mem_map.mp isPiece
    exact layer.whole_text
  rw [splitLayers, toList_printed_cons,
    splitAtDepthZero_join (by decide) first.whole_text restWhole]
  simp [trimmed, Function.comp_def]

/-- All pieces of printed layers are effects. -/
theorem splitConstructors_printed
    {layers : List EffectLayer}
    (nonempty : layers ≠ []) :
    splitConstructors (printed layers) "Effect" = layers.map text := by
  rw [splitConstructors, splitLayers_printed nonempty, List.filter_eq_self]
  intro piece isPiece
  obtain ⟨layer, _, rfl⟩ := List.mem_map.mp isPiece
  have isForm : layer.text.toList = "Effect(".toList ++ (layer.body ++ [')']) := by
    rw [toList_text]
    simp
  rw [startsWith, isForm, List.isPrefixOf_iff_prefix]
  exact List.prefix_append _ _

end EffectLayer

/-! The scanners for a color and for offsets. -/

namespace Shadow

/-- The color of an effect stands behind its key. -/
theorem takesKey_scanEffectColor? :
    TakesKey "color".toList scanEffectColor? := by
  intro chars found isTaken
  unfold scanEffectColor? afterText? at isTaken
  obtain ⟨rest, isKey, afterKey⟩ := Option.bind_eq_some_iff.mp isTaken
  refine ⟨rest, (eq_append_of_after? isKey).trans rfl, ?_⟩
  have isSkipped : skipBlank rest <:+ rest := List.dropWhile_suffix _
  split at afterKey
  · rename_i digits isForm
    simp only at afterKey
    split at afterKey
    · cases afterKey
    · obtain rfl := Option.some.inj afterKey
      rw [isForm] at isSkipped
      exact (List.dropWhile_suffix _).trans ((List.suffix_cons _ _).trans isSkipped)
  · cases afterKey

/-- The offsets of an effect stand behind their key. -/
theorem takesKey_scanOffset? :
    TakesKey "offset".toList scanOffset? := by
  intro chars found isTaken
  unfold scanOffset? afterText? at isTaken
  obtain ⟨rest, isKey, afterKey⟩ := Option.bind_eq_some_iff.mp isTaken
  refine ⟨rest, (eq_append_of_after? isKey).trans rfl, ?_⟩
  have isSkipped : skipBlank rest <:+ rest := List.dropWhile_suffix _
  split at afterKey
  · rename_i inside isForm
    simp only at afterKey
    split at afterKey
    · rename_i behind isClosed
      split at afterKey
      · cases afterKey
      · obtain rfl := Option.some.inj afterKey
        have closingSuffix : ')' :: behind <:+ inside :=
          isClosed ▸ List.dropWhile_suffix _
        rw [isForm] at isSkipped
        exact (List.suffix_cons _ _).trans
          (closingSuffix.trans ((List.suffix_cons _ _).trans isSkipped))
    · cases afterKey
  · cases afterKey

/-- The color of an effect is the first that its scanner finds. -/
theorem effectColor_of_head?
    {body digits : List Char}
    (isFirst : (foundIn scanEffectColor? body).head? = some digits) :
    effectColor body =
      (Color.parseHex (String.ofList digits)).getD defaultEffectColor := by
  rw [← map_findFirst takesKey_scanEffectColor?.shortens] at isFirst
  obtain ⟨⟨before, _, after⟩, isFound, rfl⟩ := Option.map_eq_some_iff.mp isFirst
  rw [effectColor, isFound]

/-- The offsets of an effect are the first that their scanner finds. -/
theorem effectOffsets?_of_head?
    {body content : List Char}
    (isFirst : (foundIn scanOffset? body).head? = some content) :
    effectOffsets? body = do
      let x ← offsetOf? (splitOn ',' content)[0]?
      let y ← offsetOf? (splitOn ',' content)[1]?
      return (x, y) := by
  rw [← map_findFirst takesKey_scanOffset?.shortens] at isFirst
  obtain ⟨⟨before, _, after⟩, isFound, rfl⟩ := Option.map_eq_some_iff.mp isFirst
  rw [effectOffsets?, isFound]

/-- A written color is taken up to the character behind its digits. -/
theorem scanEffectColor?_append
    {digits : List Char}
    (isThere : digits ≠ [])
    (areHex : ∀ c ∈ digits, Color.isHexDigit c = true)
    (rest : List Char) :
    scanEffectColor?
      ("color".toList ++ ':' :: ' ' :: '#' :: (digits ++ ',' :: rest)) =
      some ('#' :: digits, ',' :: rest) := by
  have isKey : after? "color:".toList
      ("color".toList ++ ':' :: ' ' :: '#' :: (digits ++ ',' :: rest)) =
        some (' ' :: '#' :: (digits ++ ',' :: rest)) :=
    after?_append "color:".toList _
  have isSkipped : skipBlank (' ' :: '#' :: (digits ++ ',' :: rest)) =
      '#' :: (digits ++ ',' :: rest) := by
    have hashInk : isBlank '#' = false := by decide
    simp [skipBlank, isBlank_space, hashInk]
  have noComma : Color.isHexDigit ',' = false := by decide
  unfold scanEffectColor? afterText?
  rw [isKey, Option.bind_eq_bind, Option.bind_some, isSkipped]
  simp only
  rw [List.takeWhile_append_of_pos areHex, List.dropWhile_append_of_pos areHex]
  simp [noComma, isThere]

/-- A written text in parentheses is taken up to the closing one. -/
theorem scanOffset?_append
    {content : List Char}
    (isThere : content ≠ [])
    (noClose : ')' ∉ content)
    (rest : List Char) :
    scanOffset? ("offset".toList ++ ':' :: ' ' :: '(' :: (content ++ ')' :: rest)) =
      some (content, rest) := by
  have isKey : after? "offset:".toList
      ("offset".toList ++ ':' :: ' ' :: '(' :: (content ++ ')' :: rest)) =
        some (' ' :: '(' :: (content ++ ')' :: rest)) :=
    after?_append "offset:".toList _
  have isSkipped : skipBlank (' ' :: '(' :: (content ++ ')' :: rest)) =
      '(' :: (content ++ ')' :: rest) := by
    have openInk : isBlank '(' = false := by decide
    simp [skipBlank, isBlank_space, openInk]
  have isPassed : ∀ c ∈ content, (c != ')') = true := by
    intro c isMember
    rw [bne_iff_ne]
    rintro rfl
    exact noClose isMember
  unfold scanOffset? afterText?
  rw [isKey, Option.bind_eq_bind, Option.bind_some, isSkipped]
  simp only
  rw [List.takeWhile_append_of_pos isPassed, List.dropWhile_append_of_pos isPassed]
  simp [isThere]

end Shadow

namespace EffectLayer

variable (layer : EffectLayer)

/-! What the scanners find. -/

theorem type_ne_nil :
    layer.type.toList ≠ [] := by
  simpa using layer.isTyped

theorem digits_ne_nil :
    layer.digits ≠ [] := by
  intro isEmpty
  have isLength := layer.colorLength
  rw [isEmpty] at isLength
  exact absurd isLength (by decide)

/-- The type of a layer is no key. -/
theorem foundIn_body
    {α : Type}
    {scan : List Char → Option (α × List Char)}
    {key : List Char}
    (takesKey : TakesKey key scan)
    (wordChars : ∀ c ∈ key, isWord c = true)
    (notEnd : ¬ key <:+ "type".toList) :
    foundIn scan layer.body = foundIn scan layer.colorChars := by
  unfold body
  rw [takesKey.foundIn_other wordChars (List.all_eq_true.mp (by decide)) notEnd,
    (takesKey.needsColon wordChars).foundIn_value (layer.not_mem_type (by decide))]

/-- The color that is found is that of the layer. -/
theorem effectColor_body :
    Shadow.effectColor layer.body =
      (Color.parseHex layer.colorText).getD Shadow.defaultEffectColor := by
  apply Shadow.effectColor_of_head?
  rw [layer.foundIn_body Shadow.takesKey_scanEffectColor?
    (List.all_eq_true.mp (by decide)) (by decide)]
  unfold colorChars
  have isTaken :=
    Shadow.scanEffectColor?_append layer.digits_ne_nil layer.hexDigits
      (' ' :: layer.offsetChars)
  rw [foundIn_of_taken isTaken
    (Shadow.takesKey_scanEffectColor?.shortens _ _ isTaken)]
  rfl

/-- The offsets that are found are those of the layer. -/
theorem effectOffsets?_body :
    Shadow.effectOffsets? layer.body =
      some (layer.offsetX.value, layer.offsetY.value) := by
  have noNumeral (numeral : PlainNumeral) {c : Char}
    (isOther : Number.isNumeralChar c = false) : c ∉ numeral.text :=
    PlainNumeral.not_mem_text isOther
  have isFirst :
      (foundIn Shadow.scanOffset? layer.body).head? = some layer.offsets := by
    have offsetWord : ∀ c ∈ "offset".toList, isWord c = true :=
      List.all_eq_true.mp (by decide)
    rw [layer.foundIn_body Shadow.takesKey_scanOffset? offsetWord (by decide)]
    unfold colorChars
    rw [Shadow.takesKey_scanOffset?.foundIn_other offsetWord
      (List.all_eq_true.mp (by decide)) (by decide)]
    have noColon : ':' ∉ '#' :: layer.digits := by
      simp [layer.not_mem_digits (c := ':') (by decide)]
    have needsColon := Shadow.takesKey_scanOffset?.needsColon offsetWord
    rw [← List.cons_append, needsColon.foundIn_value noColon]
    unfold offsetChars
    have isThere : layer.offsets ≠ [] := by
      simp [offsets]
    have noClose : ')' ∉ layer.offsets := by
      simp [offsets, noNumeral _ (c := ')') (by decide)]
    have isTaken :=
      Shadow.scanOffset?_append isThere noClose (',' :: ' ' :: layer.radiusChars)
    rw [foundIn_of_taken isTaken (Shadow.takesKey_scanOffset?.shortens _ _ isTaken)]
    rfl
  have isSplit : splitOn ',' layer.offsets =
      [layer.offsetX.text, ' ' :: layer.offsetY.text] := by
    have noComma : ',' ∉ ' ' :: layer.offsetY.text := by
      simp [noNumeral layer.offsetY (c := ',') (by decide)]
    rw [offsets, splitOn_append (noNumeral layer.offsetX (by decide)),
      splitOn_of_not_mem noComma]
  have trimmed (numeral : PlainNumeral) : trimChars numeral.text = numeral.text ∧
      trimChars (' ' :: numeral.text) = numeral.text := by
    have isTrimmed :=
      (trimmed_of_not_blank (isPlain_numeral numeral).noBlank).trimChars_eq
    refine ⟨isTrimmed, ?_⟩
    rw [trimChars_space, isTrimmed]
  have isOffset (numeral : PlainNumeral) {chars : List Char}
      (isTrimmed : trimChars chars = numeral.text) :
      Shadow.offsetOf? (some chars) = some numeral.value := by
    have isThere := numeral.text_ne_nil
    unfold Shadow.offsetOf?
    simp only [isTrimmed, numeral.readFloat?_text]
    simp [isThere]
  rw [Shadow.effectOffsets?_of_head? isFirst, isSplit, List.getElem?_cons_zero,
    List.getElem?_cons_succ, List.getElem?_cons_zero, isOffset _ (trimmed _).1,
    isOffset _ (trimmed _).2]
  rfl

theorem isPlain_color :
    IsPlain ('#' :: layer.digits) := by
  refine isPlain_of_class (fun c => c == '#' || Color.isHexDigit c) ?_ (by decide)
    (List.cons_ne_nil _ _) ?_
  · intro c isMember
    rcases Bool.or_eq_true_iff.mp isMember with isHash | isHex
    · rw [eq_of_beq isHash]
      decide
    · exact Color.not_isBlank_of_isHexDigit isHex
  · simpa using fun c isMember => Or.inr (layer.hexDigits c isMember)

theorem isPlain_offset :
    IsPlain ('(' :: layer.offsetX.text) := by
  refine isPlain_of_class (fun c => c == '(' || Number.isNumeralChar c) ?_
    (by decide) (List.cons_ne_nil _ _) ?_
  · intro c isMember
    rcases Bool.or_eq_true_iff.mp isMember with isOpen | inNumeral
    · rw [eq_of_beq isOpen]
      decide
    · exact Number.not_isBlank_of_isNumeralChar inNumeral
  · simpa using fun c isMember =>
      Or.inr (PlainNumeral.isNumeralChar_of_mem_text isMember)

/-- The spread that is found, if there is one. -/
def spreadParts : List (List Char × List Char) :=
  layer.spread?.toList.map (fun spread => ("spread".toList, spread.text))

theorem endsPair_spreadChars :
    EndsPair layer.spreadChars := by
  unfold spreadChars
  cases layer.spread? with
  | none => exact endsPair_nil
  | some spread => exact endsPair_comma _

theorem foundIn_spreadChars :
    foundIn scanPair? layer.spreadChars = layer.spreadParts := by
  unfold spreadChars spreadParts
  cases layer.spread? with
  | none => exact foundIn_nil
  | some spread =>
      have isFound :
          foundIn scanPair? ("spread".toList ++ ':' :: ' ' :: (spread.text ++ [])) =
            ("spread".toList, spread.text) :: foundIn scanPair? [] :=
        foundIn_scanPair?_plain (by decide) (List.all_eq_true.mp (by decide))
          (isPlain_numeral spread) endsPair_nil
      rw [List.append_nil, foundIn_nil] at isFound
      exact (foundIn_scanPair?_comma _).trans isFound

theorem foundIn_radiusChars :
    foundIn scanPair? layer.radiusChars =
      ("radius".toList, layer.radius.text) :: layer.spreadParts := by
  unfold radiusChars
  rw [foundIn_scanPair?_plain (by decide) (List.all_eq_true.mp (by decide))
    (isPlain_numeral layer.radius) layer.endsPair_spreadChars, foundIn_spreadChars]

/--
The second offset belongs to no key, for its parenthesis comes
before the next colon.
-/
theorem foundIn_secondOffset :
    foundIn scanPair?
        (',' :: ' ' ::
          (layer.offsetY.text ++ ')' :: ',' :: ' ' :: layer.radiusChars)) =
      foundIn scanPair? layer.radiusChars := by
  have noColon : ':' ∉ layer.offsetY.text := PlainNumeral.not_mem_text (by decide)
  have isForm :
      ',' :: ' ' :: (layer.offsetY.text ++ ')' :: ',' :: ' ' :: layer.radiusChars) =
        (',' :: ' ' :: (layer.offsetY.text ++ [')', ','])) ++ ' ' ::
          layer.radiusChars := by
    simp
  rw [isForm]
  exact needsColon_scanPair?.foundIn_skip (by simp [noColon]) (by decide)
    (by decide) _

theorem foundIn_offsetChars :
    foundIn scanPair? layer.offsetChars =
      ("offset".toList, '(' :: layer.offsetX.text) ::
        ("radius".toList, layer.radius.text) ::
        layer.spreadParts := by
  have isForm : layer.offsetChars =
      "offset".toList ++ ':' :: ' ' ::
        ('(' :: layer.offsetX.text ++ ',' :: ' ' ::
          (layer.offsetY.text ++ ')' :: ',' :: ' ' :: layer.radiusChars)) := by
    unfold offsetChars offsets
    simp
  rw [isForm, foundIn_scanPair?_plain (by decide) (List.all_eq_true.mp (by decide))
    layer.isPlain_offset (endsPair_comma _), foundIn_secondOffset,
    foundIn_radiusChars]

/--
The named parts that are found: a comma inside the offsets ends the
value in front of it.
-/
def parts : List (List Char × List Char) :=
  ("type".toList, layer.type.toList) :: ("color".toList, '#' :: layer.digits) ::
    ("offset".toList, '(' :: layer.offsetX.text) ::
      ("radius".toList, layer.radius.text) ::
      layer.spreadParts

theorem foundIn_scanPair?_body :
    foundIn scanPair? layer.body = layer.parts := by
  have typePlain : IsPlain layer.type.toList :=
    isPlain_of_class isWord (fun _ => not_isBlank_of_isWord) (by decide)
      layer.type_ne_nil layer.typeChars
  have comma (rest : List Char) :
      foundIn scanPair? (',' :: ' ' :: rest) = foundIn scanPair? rest :=
    foundIn_scanPair?_comma rest
  unfold body
  rw [foundIn_scanPair?_plain (by decide) (List.all_eq_true.mp (by decide))
    typePlain (endsPair_comma _), comma]
  unfold colorChars
  rw [← List.cons_append,
    foundIn_scanPair?_plain (by decide) (List.all_eq_true.mp (by decide))
      layer.isPlain_color (endsPair_comma _), comma, foundIn_offsetChars]
  rfl

theorem parsePairs_body :
    parsePairs (String.ofList layer.body) =
      [ ("type", PairValue.ofChars layer.type.toList),
        ("color", PairValue.ofChars ('#' :: layer.digits)),
        ("offset", PairValue.ofChars ('(' :: layer.offsetX.text)),
        ("radius", .number layer.radius.value) ] ++
        layer.spread?.toList.map
          (fun spread => ("spread", .number spread.value)) := by
  have isFound : foundIn scanPair? (String.ofList layer.body).toList =
      layer.parts := by
    rw [String.toList_ofList, foundIn_scanPair?_body]
  rw [parsePairs_of_foundIn isFound]
  · unfold parts spreadParts
    cases layer.spread? <;> simp [PairValue.ofChars_numeral]
  · unfold parts spreadParts
    cases layer.spread? <;> simp

/-- Only the word for inner shadows is read as the type of an inset one. -/
theorem inset_iff
    (type : String) :
    (match some (PairValue.ofChars type.toList) with
      | some (.text name) => name == "INNER_SHADOW"
      | _ => false) = decide (type = "INNER_SHADOW") := by
  unfold PairValue.ofChars
  cases scanned : Number.scanNumber? type.toList with
  | none =>
      simp only [String.ofList_toList]
      rfl
  | some found =>
      -- A word that begins with a number is another one.
      have isOther : type ≠ "INNER_SHADOW" := by
        rintro rfl
        have isNone : Number.scanNumber? "INNER_SHADOW".toList = none := by decide
        cases isNone.symm.trans scanned
      simp [isOther]

/-- A printed layer is read with the values that were printed. -/
theorem exists_parseEffect_text :
    ∃ shadow, Shadow.parseEffect layer.text = some shadow ∧
      layer.IsReadAs shadow := by
  have isBody : constructorBody? layer.text "Effect" =
      some (String.ofList layer.body) := by
    rw [text_eq]
    exact constructorBody?_eq_some (by rintro c ⟨⟩; decide) _
  obtain ⟨color, isColor⟩ :
      ∃ color, Color.parseHex layer.colorText = some color := by
    rw [← Option.isSome_iff_exists, Color.isSome_parseHex_iff]
    refine ⟨layer.digits, ?_, layer.hexDigits, layer.colorLength⟩
    rw [colorText, String.toList_ofList]
    exact (trimmed_of_not_blank layer.isPlain_color.noBlank).trimChars_eq
  have radius :
      Typography.lengthOf? "radius" (parsePairs (String.ofList layer.body)) =
        some (some layer.radius.value) := by
    simp [parsePairs_body, Typography.lengthOf?, Wire.lookup?]
  have spread :
      Typography.lengthOf? "spread" (parsePairs (String.ofList layer.body)) =
        some (layer.spread?.map PlainNumeral.value) := by
    cases isSpread : layer.spread? <;>
      simp [parsePairs_body, Typography.lengthOf?, Wire.lookup?, isSpread]
  have type : Wire.lookup? "type" (parsePairs (String.ofList layer.body)) =
      some (PairValue.ofChars layer.type.toList) := by
    simp [parsePairs_body, Wire.lookup?]
  unfold Shadow.parseEffect
  simp only [isBody, Option.bind_eq_bind, Option.bind_some, String.toList_ofList,
    effectOffsets?_body, radius, spread, type, effectColor_body, isColor]
  refine ⟨_, rfl, rfl, rfl, rfl, ?_, isColor,
    congrArg Wire.bool (inset_iff layer.type)⟩
  rw [Option.map_map]
  rfl

/-- Printed layers are read one by one. -/
theorem exists_map_parseEffect_text
    (layers : List EffectLayer) :
    ∃ shadows, List.Forall₂ IsReadAs layers shadows ∧
      (layers.map text).map Shadow.parseEffect = shadows.map some := by
  induction layers with
  | nil => exact ⟨[], .nil, rfl⟩
  | cons layer rest inductionHypothesis =>
      obtain ⟨shadow, isShadow, isRead⟩ := layer.exists_parseEffect_text
      obtain ⟨shadows, areRead, areShadows⟩ := inductionHypothesis
      refine ⟨shadow :: shadows, .cons isRead areRead, ?_⟩
      rw [List.map_cons, List.map_cons, List.map_cons, isShadow, areShadows]

section Printed

variable {layers : List EffectLayer}

theorem trim_printed
    (nonempty : layers ≠ []) :
    trim (printed layers) = printed layers := by
  obtain ⟨inside, isForm⟩ := exists_inside_printed nonempty
  have trimmed : Trimmed (printed layers).toList := by
    rw [isForm]
    constructor
    · rintro c ⟨⟩
      decide
    · intro c isLast
      rw [← List.append_assoc, List.getLast?_concat] at isLast
      obtain rfl := Option.some.inj isLast
      decide
  rw [trim, trimmed.trimChars_eq, String.ofList_toList]

theorem startsWith_printed
    (nonempty : layers ≠ []) :
    startsWith "Effect(".toList (printed layers).toList = true := by
  obtain ⟨inside, isForm⟩ := exists_inside_printed nonempty
  rw [startsWith, isForm, List.isPrefixOf_iff_prefix]
  exact List.prefix_append _ _

/-- The shadows of printed layers are those that the layers are read as. -/
theorem parse_printed
    {shadows : List Shadow}
    (nonempty : layers ≠ [])
    (isThere : shadows ≠ [])
    (areShadows : (layers.map text).map Shadow.parseEffect = shadows.map some) :
    Shadow.parse (printed layers) = .ok (some shadows) := by
  unfold Shadow.parse Shadow.parseAll
  simp only [trim_printed nonempty, startsWith_printed nonempty, if_true,
    splitConstructors_printed nonempty]
  have areTried :
      (layers.map text).mapM
        (fun piece =>
          (.ok (Shadow.parseEffect piece) : Except Fault (Option Shadow))) =
            .ok ((layers.map text).map Shadow.parseEffect) :=
    mapM_eq_ok_map (fun _ _ => rfl)
  rw [areTried, areShadows, ok_bind]
  have areAll : (shadows.map some).mapM id = some shadows := by
    rw [List.mapM_map]
    simpa using List.mapM_pure (m := Option) (l := shadows) (f := id)
  simp only [List.isEmpty_iff, List.map_eq_nil_iff, isThere, if_false, areAll]
  rfl

end Printed

end EffectLayer

theorem Handler.shadowValue_of_several
    {shadows : List Shadow}
    (several : shadows.length ≠ 1) :
    Handler.shadowValue shadows = .shadows shadows := by
  unfold Handler.shadowValue
  split
  · exact absurd rfl several
  · rfl

open EffectLayer

/--
Printed layers of a shadow are read one by one: as many shadows in the same
order, each with the offsets, the blur and the spread in pixels, the color and
the kind that were printed.  One layer is a shadow of its own.
-/
theorem shadow_reads_printed_layers
    {layers : List EffectLayer}
    (nonempty : layers ≠ []) :
    ∃ shadows, List.Forall₂ IsReadAs layers shadows ∧
      Shadow.parse (printed layers) = .ok (some shadows) ∧
      (∀ shadow, shadows = [shadow] →
        Handler.shadow.parseCompact (printed layers) =
          .ok (some (.shadow shadow))) ∧
      (shadows.length ≠ 1 →
        Handler.shadow.parseCompact (printed layers) =
          .ok (some (.shadows shadows))) := by
  obtain ⟨shadows, areRead, areShadows⟩ := exists_map_parseEffect_text layers
  have isThere : shadows ≠ [] := by
    rintro rfl
    exact nonempty (List.forall₂_nil_right_iff.mp areRead)
  have isParsed := parse_printed nonempty isThere areShadows
  have isCompact : Handler.shadow.parseCompact (printed layers) =
      .ok (some (Handler.shadowValue shadows)) := by
    unfold Handler.shadow
    simp only [isParsed]
    rfl
  refine ⟨shadows, areRead, isParsed, ?_, ?_⟩
  · rintro shadow rfl
    exact isCompact
  · intro several
    rw [isCompact, Handler.shadowValue_of_several several]

/-- A negative numeral with a point. -/
def upwards : PlainNumeral :=
  ⟨true, ['1'], ['5'], List.all_eq_true.mp (by decide),
    List.all_eq_true.mp (by decide), .inl (List.cons_ne_nil _ _)⟩

/-- A layer without a spread. -/
def outerLayer : EffectLayer where
  type := "DROP_SHADOW"
  digits := "1D293D05".toList
  offsetX := .ofDigit '0' rfl
  offsetY := .ofDigit '1' rfl
  radius := .ofDigit '2' rfl
  spread? := none
  isTyped := by decide
  typeChars := List.all_eq_true.mp (by decide)
  hexDigits := List.all_eq_true.mp (by decide)
  colorLength := by decide

/-- An inner layer, moved upwards and spread. -/
def innerLayer : EffectLayer where
  type := "INNER_SHADOW"
  digits := "fff".toList
  offsetX := .ofDigit '0' rfl
  offsetY := upwards
  radius := .ofDigit '4' rfl
  spread? := some (.ofDigit '1' rfl)
  isTyped := by decide
  typeChars := List.all_eq_true.mp (by decide)
  hexDigits := List.all_eq_true.mp (by decide)
  colorLength := by decide

/--
Two printed layers, the second one inside, are read as two shadows
of their lengths.
-/
theorem shadow_reads_two_layers :
    printed [outerLayer, innerLayer] =
        "Effect(type: DROP_SHADOW, color: #1D293D05, " ++
          "offset: (0, 1), radius: 2), " ++
          "Effect(type: INNER_SHADOW, color: #fff, " ++
          "offset: (0, -1.5), radius: 4, spread: 1)" ∧
      [outerLayer, innerLayer] ≠ [] ∧
      ∃ outer inner,
        Handler.shadow.parseCompact (printed [outerLayer, innerLayer]) =
            .ok (some (.shadows [outer, inner])) ∧
          (outer.offsetX, outer.offsetY, outer.blur, outer.spread?) =
            (⟨.float 0, .str "px"⟩, ⟨.float 1, .str "px"⟩,
              ⟨.float 2, .str "px"⟩, none) ∧
          (inner.offsetX, inner.offsetY, inner.blur, inner.spread?) =
            (⟨.float 0, .str "px"⟩, ⟨.float (-1.5), .str "px"⟩,
              ⟨.float 4, .str "px"⟩, some ⟨.float 1, .str "px"⟩) ∧
          (outer.inset, inner.inset) = (.bool false, .bool true) := by
  have nonempty : [outerLayer, innerLayer] ≠ [] := List.cons_ne_nil _ _
  obtain ⟨shadows, areRead, _, _, severalRead⟩ :=
    shadow_reads_printed_layers nonempty
  have several : shadows.length ≠ 1 := by
    rw [← areRead.length_eq]
    decide
  have isCompact := severalRead several
  obtain ⟨outer, rest, outerRead, restRead, rfl⟩ :=
    List.forall₂_cons_left_iff.mp areRead
  obtain ⟨inner, others, innerRead, othersRead, rfl⟩ :=
    List.forall₂_cons_left_iff.mp restRead
  obtain rfl := List.forall₂_nil_left_iff.mp othersRead
  refine ⟨by decide +kernel, nonempty, outer, inner, isCompact, ?_, ?_, ?_⟩
  · rw [outerRead.offsetX, outerRead.offsetY, outerRead.blur, outerRead.spread]
    rfl
  · rw [innerRead.offsetX, innerRead.offsetY, innerRead.blur, innerRead.spread]
    rfl
  · rw [outerRead.inset, innerRead.inset]
    rfl

end DesignTokens
