import DesignTokens.Proofs.Value.Curves
import DesignTokens.Registry.Scalar
import DesignTokens.Wire.Equal

namespace DesignTokens

/-!
# Scalars that are written and read again

What the handlers of lengths, time spans, easing curves and numbers write for a
value that they read from a text is read by the same handler again.  A number
alone is written in full, so it comes back.  The numbers of the other values are
written in six digits unless they are whole, so the value comes back exactly when
each of its numbers is whole or has six digits.
-/

open DesignTokens.Number DesignTokens.Text

/-! Values that come back. -/

namespace TokenValue

/-- The doubles that a scalar is written with. -/
def numbers : TokenValue → List Float
  | .plain value => doubles [value]
  | .dimension length => doubles [length.value]
  | .duration span => doubles [span.value]
  | .cubicBezier curve => doubles curve.points
  | _ => []

/--
What a scalar comes back as: the same kind and unit, with each of
its numbers reread.
-/
inductive Reread : TokenValue → TokenValue → Prop where
  | dimension
      {value again : Float}
      (unit : String) :
      IsReread value again →
      Reread (.dimension (Dimension.ofFloat value unit))
        (.dimension (Dimension.ofFloat again unit))
  | duration
      {value again : Float}
      (unit : String) :
      IsReread value again →
      Reread (.duration ⟨.float value, .str unit⟩)
        (.duration ⟨.float again, .str unit⟩)
  | cubicBezier
      {x1 y1 x2 y2 againX1 againY1 againX2 againY2 : Float} :
      IsReread x1 againX1 →
      IsReread y1 againY1 →
      IsReread x2 againX2 →
      IsReread y2 againY2 →
      Reread (.cubicBezier ⟨.float x1, .float y1, .float x2, .float y2⟩)
        (.cubicBezier ⟨.float againX1, .float againY1, .float againX2,
          .float againY2⟩)

theorem same_encode_dimension
    (again value : Float)
    (unit : String) :
    Wire.same (TokenValue.dimension (Dimension.ofFloat again unit)).encode
      (TokenValue.dimension (Dimension.ofFloat value unit)).encode =
        (again == value) := by
  simp [encode, Dimension.encode, Dimension.ofFloat, Wire.object, Wire.same,
    Wire.sameMembers, Wire.sameLeaf, Wire.lookup?]

theorem same_encode_duration
    (again value : Float)
    (unit : String) :
    Wire.same (TokenValue.duration ⟨.float again, .str unit⟩).encode
      (TokenValue.duration ⟨.float value, .str unit⟩).encode =
        (again == value) := by
  simp [encode, Duration.encode, Wire.object, Wire.same, Wire.sameMembers,
    Wire.sameLeaf, Wire.lookup?]

theorem same_encode_cubicBezier
    (againX1 againY1 againX2 againY2 x1 y1 x2 y2 : Float) :
    Wire.same
        (TokenValue.cubicBezier
          ⟨.float againX1, .float againY1, .float againX2, .float againY2⟩).encode
        (TokenValue.cubicBezier
          ⟨.float x1, .float y1, .float x2, .float y2⟩).encode = true ↔
      (againX1 == x1) = true ∧ (againY1 == y1) = true ∧ (againX2 == x2) = true ∧
        (againY2 == y2) = true := by
  simp [encode, CubicBezier.encode, CubicBezier.points, Wire.same, Wire.sameItems,
    Wire.sameLeaf]

/--
A scalar that was reread is the same exactly when its numbers are whole or
have six digits.
-/
theorem Reread.same_iff
    {value again : TokenValue}
    (reread : Reread value again)
    (arePlain : ∀ number ∈ value.numbers, IsPlainInSix number) :
    Wire.same again.encode value.encode = true ↔
      ∀ number ∈ value.numbers, isWhole number = true ∨ HasSixDigits number := by
  cases reread with
  | dimension unit isReread =>
      rw [same_encode_dimension, isReread.beq_iff (arePlain _ List.mem_cons_self)]
      simp [numbers, doubles, Dimension.ofFloat]
  | duration unit isReread =>
      rw [same_encode_duration, isReread.beq_iff (arePlain _ List.mem_cons_self)]
      simp [numbers, doubles]
  | cubicBezier isX1 isY1 isX2 isY2 =>
      obtain ⟨plainX1, plainY1, plainX2, plainY2⟩ :
          IsPlainInSix _ ∧ IsPlainInSix _ ∧ IsPlainInSix _ ∧ IsPlainInSix _ := by
        simpa [numbers, doubles, CubicBezier.points] using arePlain
      rw [same_encode_cubicBezier, isX1.beq_iff plainX1, isY1.beq_iff plainY1,
        isX2.beq_iff plainX2, isY2.beq_iff plainY2]
      simp [numbers, doubles, CubicBezier.points]

end TokenValue

/-! Handlers that read what they write. -/

namespace Handler

/-- The handlers of the scalars that are written in six digits. -/
def roundedScalars : List Handler :=
  [dimension, duration, cubicBezier]

/--
Whether a handler reads what it writes for a value, up to six
digits of each number.
-/
def Rereads (handler : Handler) (options : TextOptions) (value : TokenValue) :
    Prop :=
  ∃ text again, handler.toText options value = .ok text ∧
    handler.parseCompact text = .ok (some again) ∧ value.Reread again

variable {raw : String} {value : TokenValue} (options : TextOptions)

theorem rereads_dimension
    (isRead : dimension.parseCompact raw = .ok (some value))
    (arePlain : ∀ number ∈ value.numbers, IsPlainInSix number) :
    dimension.Rereads options value := by
  obtain ⟨length, isLength, rfl⟩ := Option.map_eq_some_iff.mp (Except.ok.inj isRead)
  obtain ⟨number, unit, isListed, rfl⟩ := Dimension.exists_of_parse isLength
  obtain ⟨numeral, _, isText, _, isReread⟩ :=
    exists_numberText (arePlain number List.mem_cons_self)
  refine ⟨String.ofList numeral.text ++ unit, _, ?_, ?_, .dimension unit isReread⟩
  · change (Wire.float number).numberText >>= (fun text => .ok (text ++ unit)) = _
    rw [isText, ok_bind]
  · change Except.ok ((Dimension.parse _ "px").map TokenValue.dimension) = _
    rw [Dimension.parse_numeral numeral isListed]
    rfl

theorem rereads_duration
    (isRead : duration.parseCompact raw = .ok (some value))
    (arePlain : ∀ number ∈ value.numbers, IsPlainInSix number) :
    duration.Rereads options value := by
  obtain ⟨span, isSpan, rfl⟩ := Option.map_eq_some_iff.mp (Except.ok.inj isRead)
  obtain ⟨number, unit, rfl, isListed, notNegative⟩ :=
    Duration.exists_of_ofChars? isSpan
  obtain ⟨numeral, hasWhole, isText, isSign, isReread⟩ :=
    exists_numberText (arePlain number List.mem_cons_self)
  refine ⟨String.ofList numeral.text ++ unit, _, ?_, ?_, .duration unit isReread⟩
  · change (Wire.float number).numberText >>= (fun text => .ok (text ++ unit)) = _
    rw [isText, ok_bind]
  · change Except.ok ((Duration.parse _).map TokenValue.duration) = _
    rw [Duration.parse_numeral (isSign notNegative) hasWhole isListed]
    rfl

theorem rereads_cubicBezier
    (isRead : cubicBezier.parseCompact raw = .ok (some value))
    (arePlain : ∀ number ∈ value.numbers, IsPlainInSix number) :
    cubicBezier.Rereads options value := by
  obtain ⟨curve, isCurve, rfl⟩ := Option.map_eq_some_iff.mp (Except.ok.inj isRead)
  obtain ⟨x1, y1, x2, y2, rfl⟩ := CubicBezier.exists_of_parse isCurve
  obtain ⟨coordinates, isText, rereadX1, rereadY1, rereadX2, rereadY2⟩ :=
    CubicBezier.exists_text arePlain
  refine ⟨_, _, isText, ?_, .cubicBezier rereadX1 rereadY1 rereadX2 rereadY2⟩
  change Except.ok ((CubicBezier.parse _).map TokenValue.cubicBezier) = _
  rw [coordinates.parse_written]
  rfl

/-- Each handler of rounded scalars reads what it writes. -/
theorem rereads_rounded
    {handler : Handler}
    (isRounded : handler ∈ roundedScalars)
    (isRead : handler.parseCompact raw = .ok (some value))
    (arePlain : ∀ number ∈ value.numbers, IsPlainInSix number) :
    handler.Rereads options value := by
  simp only [roundedScalars, List.mem_cons, List.not_mem_nil, or_false] at isRounded
  rcases isRounded with rfl | rfl | rfl
  · exact rereads_dimension options isRead arePlain
  · exact rereads_duration options isRead arePlain
  · exact rereads_cubicBezier options isRead arePlain

/-- A number is read again from what is written for it. -/
theorem reads_number
    (isRead : number.parseCompact raw = .ok (some value))
    (arePlain : ∀ number ∈ value.numbers, IsPlainInFull number) :
    ∃ text again, number.toText options value = .ok text ∧
      number.parseCompact text = .ok (some again) ∧
      Wire.same again.encode value.encode = true := by
  obtain ⟨content, isNumber, rfl⟩ :=
    Option.map_eq_some_iff.mp (Except.ok.inj isRead)
  obtain ⟨numeral, _, isText, isSame⟩ :=
    exists_shortText (arePlain content List.mem_cons_self)
  refine ⟨String.ofList numeral.text, .plain (.float numeral.value), ?_, ?_, ?_⟩
  · exact congrArg Except.ok isText
  · change Except.ok ((bareNumber? _).map _) = _
    rw [bareNumber?_numeral]
    rfl
  · exact isSame

/--
What is written for a scalar without an exponent is read again: a number as
itself, and any other scalar as itself exactly when each of its numbers is whole
or has six digits.
-/
theorem scalar_texts_read_back :
    (∀ handler ∈ roundedScalars,
      ∀ (raw : String) (value : TokenValue) (options : TextOptions),
      handler.parseCompact raw = .ok (some value) →
      (∀ number ∈ value.numbers, IsPlainInSix number) →
      ∃ text again, handler.toText options value = .ok text ∧
        handler.parseCompact text = .ok (some again) ∧ value.Reread again ∧
        (Wire.same again.encode value.encode = true ↔
          ∀ number ∈ value.numbers, isWhole number = true ∨ HasSixDigits number)) ∧
    ∀ (raw : String) (value : TokenValue) (options : TextOptions),
      number.parseCompact raw = .ok (some value) →
      (∀ number ∈ value.numbers, IsPlainInFull number) →
      ∃ text again, number.toText options value = .ok text ∧
        number.parseCompact text = .ok (some again) ∧
        Wire.same again.encode value.encode = true := by
  constructor
  · intro handler isRounded raw value options isRead arePlain
    obtain ⟨text, again, isWritten, isAgain, reread⟩ :=
      rereads_rounded options isRounded isRead arePlain
    exact ⟨text, again, isWritten, isAgain, reread, reread.same_iff arePlain⟩
  · intro raw value options isRead arePlain
    exact reads_number options isRead arePlain

/-- Whether a handler reads a text as a scalar whose numbers all pass a test. -/
def readsNumbers (handler : Handler) (raw : String) (passes : Float → Bool) :
    Bool :=
  (handler.parseCompact raw).toOption.join.any
    (fun value => value.numbers.all passes)

theorem exists_of_readsNumbers
    {handler : Handler}
    {raw : String}
    {passes : Float → Bool}
    (isRead : handler.readsNumbers raw passes = true) :
    ∃ value, handler.parseCompact raw = .ok (some value) ∧
      ∀ number ∈ value.numbers, passes number = true := by
  obtain ⟨value, isRead, allPass⟩ := exists_of_any_join isRead
  exact ⟨value, isRead, List.all_eq_true.mp allPass⟩

/--
Four coordinates that are whole or have one digit, and a number, come
back as they are.
-/
theorem scalar_texts_read_back_of_curve :
    (∃ value text again,
      cubicBezier.parseCompact "cubic-bezier(0.4, 0, 0.2, 1)" = .ok (some value) ∧
      (∀ number ∈ value.numbers, IsPlainInSix number) ∧
      cubicBezier.toText .standard value = .ok text ∧
      cubicBezier.parseCompact text = .ok (some again) ∧
      Wire.same again.encode value.encode = true) ∧
    ∃ value text again,
      number.parseCompact "0.1" = .ok (some value) ∧
      (∀ number ∈ value.numbers, IsPlainInFull number) ∧
      number.toText .standard value = .ok text ∧
      number.parseCompact text = .ok (some again) ∧
      Wire.same again.encode value.encode = true := by
  have isCurve :
      cubicBezier.readsNumbers "cubic-bezier(0.4, 0, 0.2, 1)" (fun number =>
        decide (IsPlainInSix number) &&
          (isWhole number || inSixDigits number == number)) = true := by
    decide +kernel
  have isNumber :
      number.readsNumbers "0.1" (fun number => decide (IsPlainInFull number)) =
        true := by
    decide +kernel
  obtain ⟨ofRounded, ofNumbers⟩ := scalar_texts_read_back
  constructor
  · obtain ⟨value, isRead, allPass⟩ := exists_of_readsNumbers isCurve
    simp only [Bool.and_eq_true, decide_eq_true_eq, Bool.or_eq_true] at allPass
    have arePlain : ∀ number ∈ value.numbers, IsPlainInSix number :=
      fun number isMember => (allPass number isMember).1
    obtain ⟨text, again, isWritten, isAgain, _, isSame⟩ :=
      ofRounded cubicBezier (by simp [roundedScalars]) _ value .standard isRead
        arePlain
    refine ⟨value, text, again, isRead, arePlain, isWritten, isAgain, isSame.mpr ?_⟩
    intro number isMember
    obtain ⟨isPlain, whole | sameDigits⟩ := allPass number isMember
    · exact .inl whole
    · cases whole : isWhole number with
      | true => exact .inl rfl
      | false => exact .inr ((inSixDigits_beq_iff isPlain whole).mp sameDigits)
  · obtain ⟨value, isRead, arePlain⟩ := exists_of_readsNumbers isNumber
    simp only [decide_eq_true_eq] at arePlain
    obtain ⟨text, again, isWritten, isAgain, isSame⟩ :=
      ofNumbers _ value .standard isRead arePlain
    exact ⟨value, text, again, isRead, arePlain, isWritten, isAgain, isSame⟩

/--
Whether a text is read as a scalar for which the second text is written, and
this is not read as an equal one.
-/
def changes (handler : Handler) (raw text : String) : Bool :=
  (handler.parseCompact raw).toOption.join.any (fun value =>
    (handler.toText .standard value).toOption == some text &&
      !(handler.parseCompact text).toOption.join.any
        (fun again => Wire.same again.encode value.encode))

theorem exists_of_changes
    {handler : Handler}
    {raw text : String}
    (isChanged : handler.changes raw text = true) :
    ∃ value, handler.parseCompact raw = .ok (some value) ∧
      handler.toText .standard value = .ok text ∧
      ∀ again, handler.parseCompact text = .ok (some again) →
        Wire.same again.encode value.encode = false := by
  obtain ⟨value, isRead, isChanged⟩ := exists_of_any_join isChanged
  rw [Bool.and_eq_true, beq_iff_eq, Bool.not_eq_true'] at isChanged
  obtain ⟨isWritten, noneSame⟩ := isChanged
  refine ⟨value, isRead, eq_ok_of_toOption isWritten, fun again isAgain => ?_⟩
  rw [isAgain] at noneSame
  exact noneSame

/--
Seven digits are lost in a length, and a small number is written
with an exponent.
-/
theorem scalar_texts_change :
    (∃ value, dimension.parseCompact "0.1234567px" = .ok (some value) ∧
      dimension.toText .standard value = .ok "0.123457px" ∧
      ∀ again, dimension.parseCompact "0.123457px" = .ok (some again) →
        Wire.same again.encode value.encode = false) ∧
    ∃ value, number.parseCompact "0.00001" = .ok (some value) ∧
      number.toText .standard value = .ok "1e-05" ∧
      ∀ again, number.parseCompact "1e-05" = .ok (some again) →
        Wire.same again.encode value.encode = false := by
  have isRounded : dimension.changes "0.1234567px" "0.123457px" = true := by
    decide +kernel
  have isScientific : number.changes "0.00001" "1e-05" = true := by
    decide +kernel
  exact ⟨exists_of_changes isRounded, exists_of_changes isScientific⟩

end Handler

end DesignTokens
