import DesignTokens.Proofs.Color.Forms
import DesignTokens.Proofs.Number.Doubles
import DesignTokens.Theme.Lookup

namespace DesignTokens.Color

/-!
# Channels of written colors

Every channel that is read from a text is a finite double whose 255ths are
finite, too: hexadecimal digits give one of 256 values, the functions limit
their channels to the range from 0 to 1, and the named colors are given.
-/

open DesignTokens.Text

/-- A double is finite, and so are its 255ths. -/
def IsShare (value : Float) : Prop :=
  value.isFinite = true ∧ (value * 255.0).isFinite = true

instance (value : Float) : Decidable (IsShare value) :=
  inferInstanceAs (Decidable (_ ∧ _))

/-- The channels of a color are shares. -/
inductive HasShares : Color → Prop where
  | ofFloats {r g b a : Float} :
      IsShare r → IsShare g → IsShare b → IsShare a → HasShares (ofFloats r g b a)

theorem isShare_zero :
    IsShare 0.0 := by
  decide

theorem isShare_one :
    IsShare 1.0 := by
  decide

/-- A limited number is a share, whatever it was. -/
theorem isShare_limit
    (value : Float) :
    IsShare (limit value) := by
  have zero : (Arithmetic.ofNat 0 : Float) = 0.0 := by decide
  have one : (Arithmetic.ofNat 1 : Float) = 1.0 := by decide
  unfold limit larger smaller
  rw [zero, one]
  simp only [Arithmetic.less, decide_eq_true_eq]
  by_cases isBelow : value < 1.0
  · rw [if_pos isBelow]
    split
    · rename_i isPositive
      exact Number.isFinite_of_share isPositive isBelow
    · exact isShare_zero
  · rw [if_neg isBelow]
    split
    · exact isShare_one
    · exact isShare_zero

theorem isShare_channelPart
    (whole value : Float)
    (percent : Bool) :
    IsShare (channelPart whole value percent) :=
  isShare_limit _

theorem hexValue_lt
    (c : Char) :
    (Reader.hexValue? c).getD 0 < 16 := by
  unfold Reader.hexValue?
  split
  · rename_i isDigit
    have bounds : c.toNat ≤ '9'.toNat := (Char.isDigit_iff_toNat.mp isDigit).2
    have isLast : '9'.toNat = 57 := rfl
    simp only [Option.getD_some]
    omega
  · split
    · rename_i isLetter
      have below : c.toNat ≤ 'f'.toNat := isLetter.2
      have isLast : 'f'.toNat = 102 := rfl
      simp only [Option.getD_some]
      omega
    · split
      · rename_i isCapital
        have below : c.toNat ≤ 'F'.toNat := isCapital.2
        have isLast : 'F'.toNat = 70 := rfl
        simp only [Option.getD_some]
        omega
      · exact Nat.zero_lt_succ _

/-- Two hexadecimal digits are one of 256 shares. -/
theorem isShare_hexChannel
    (high low : Char) :
    IsShare (hexChannel high low) := by
  have isEnd :
      ∀ value ∈ [0, 255], IsShare (Number.ofInt (value : Nat) / 255.0) := by
    decide
  -- Comparing a quotient is half the work of multiplying it again.
  have eachBetween : ∀ value < 254,
      0.0 < Number.ofInt (value + 1 : Nat) / 255.0 ∧
        Number.ofInt (value + 1 : Nat) / 255.0 < 1.0 := by
    decide +kernel
  have isByte : (Reader.hexValue? high).getD 0 * 16 +
      (Reader.hexValue? low).getD 0 < 256 := by
    have isHigh := hexValue_lt high
    have isLow := hexValue_lt low
    omega
  unfold hexChannel
  generalize (Reader.hexValue? high).getD 0 * 16 +
    (Reader.hexValue? low).getD 0 = value at isByte ⊢
  cases value with
  | zero => exact isEnd 0 (by simp)
  | succ before =>
      by_cases isNear : before < 254
      · obtain ⟨isPositive, isBelow⟩ := eachBetween before isNear
        exact Number.isFinite_of_share isPositive isBelow
      · obtain rfl : before = 254 := by omega
        exact isEnd 255 (by simp)

theorem hasShares_of_parseHex
    {text : String}
    {color : Color}
    (isRead : parseHex text = some color) :
    HasShares color := by
  unfold parseHex at isRead
  split at isRead
  · split at isRead
    · cases isRead
    · split at isRead
      · cases isRead
        exact .ofFloats (isShare_hexChannel _ _) (isShare_hexChannel _ _)
          (isShare_hexChannel _ _) isShare_one
      · cases isRead
        exact .ofFloats (isShare_hexChannel _ _) (isShare_hexChannel _ _)
          (isShare_hexChannel _ _) (isShare_hexChannel _ _)
      · cases isRead
        exact .ofFloats (isShare_hexChannel _ _) (isShare_hexChannel _ _)
          (isShare_hexChannel _ _) isShare_one
      · cases isRead
        exact .ofFloats (isShare_hexChannel _ _) (isShare_hexChannel _ _)
          (isShare_hexChannel _ _) (isShare_hexChannel _ _)
      · cases isRead
  · cases isRead

theorem isShare_of_scanAlphaEnd?
    {marks chars : List Char}
    {alpha : Float}
    (isTaken : scanAlphaEnd? marks chars = some alpha) :
    IsShare alpha := by
  unfold scanAlphaEnd? at isTaken
  split at isTaken
  · cases isTaken
    exact isShare_one
  · split at isTaken
    · obtain ⟨⟨value, rest⟩, _, isRest⟩ := Option.bind_eq_some_iff.mp isTaken
      simp only at isRest
      split at isRest
      · cases isRest
        exact isShare_channelPart _ _ _
      · cases isRest
    · cases isTaken
  · cases isTaken

theorem hasShares_of_parseRgb
    {text : String}
    {color : Color}
    (isRead : parseRgb text = some color) :
    HasShares color := by
  unfold parseRgb at isRead
  simp only [Option.bind_eq_bind, Option.bind_eq_some_iff,
    Option.pure_def] at isRead
  obtain ⟨_, _, ⟨_, _⟩, _, _, _, ⟨_, _⟩, _, _, _, ⟨_, _⟩, _, alpha, isAlpha,
      isColor⟩ := isRead
  cases isColor
  exact .ofFloats (isShare_channelPart _ _ _) (isShare_channelPart _ _ _)
    (isShare_channelPart _ _ _) (isShare_of_scanAlphaEnd? isAlpha)

theorem hasShares_ofHslFloats
    (hue saturation lightness alpha : Float) :
    HasShares (ofHslFloats hue saturation lightness alpha) :=
  .ofFloats (isShare_limit _) (isShare_limit _) (isShare_limit _) (isShare_limit _)

theorem hasShares_of_parseHsl
    {text : String}
    {color : Color}
    (isRead : parseHsl text = some color) :
    HasShares color := by
  unfold parseHsl at isRead
  simp only [Option.bind_eq_bind, Option.bind_eq_some_iff,
    Option.pure_def] at isRead
  obtain ⟨_, _, ⟨_, _⟩, _, _, _, ⟨_, _⟩, _, _, _, _, _, ⟨_, _⟩, _, _, _, _, _,
      isColor⟩ := isRead
  cases isColor
  exact hasShares_ofHslFloats _ _ _ _

theorem isShare_of_scanOklch?
    {text : String}
    {written : OklchText}
    (isTaken : scanOklch? text = some written) :
    IsShare written.alpha := by
  unfold scanOklch? at isTaken
  simp only [Option.bind_eq_bind, Option.bind_eq_some_iff,
    Option.pure_def] at isTaken
  obtain ⟨_, _, ⟨_, _⟩, _, _, _, ⟨_, _⟩, _, _, _, ⟨_, _⟩, _, alpha, isAlpha,
      isWritten⟩ := isTaken
  cases isWritten
  exact isShare_of_scanAlphaEnd? isAlpha

theorem hasShares_of_parseOklch
    {text : String}
    {color : Color}
    (isRead : parseOklch text = .ok (some color)) :
    HasShares color := by
  unfold parseOklch at isRead
  split at isRead
  · cases isRead
  · rename_i written isTaken
    simp only at isRead
    split at isRead
    · cases isRead
    · cases isRead
      exact .ofFloats (isShare_limit _) (isShare_limit _) (isShare_limit _)
        (isShare_of_scanOklch? isTaken)

theorem hasShares_of_mem_named :
    ∀ entry ∈ named, HasShares entry.2 := by
  have isZero := isShare_zero
  have isHalf : IsShare 0.502 := by decide
  have isOne := isShare_one
  unfold named
  simp only [List.forall_mem_cons]
  exact ⟨.ofFloats isZero isZero isZero isOne, .ofFloats isOne isOne isOne isOne,
    .ofFloats isZero isZero isZero isZero, .ofFloats isOne isZero isZero isOne,
    .ofFloats isZero isHalf isZero isOne, .ofFloats isZero isZero isOne isOne,
    List.forall_mem_nil _⟩

/-- The channels of a color that is read from a text are shares. -/
theorem hasShares_of_parse
    {text : String}
    {color : Color}
    (isRead : parse text = .ok (some color)) :
    HasShares color := by
  unfold parse at isRead
  simp only at isRead
  split at isRead
  · cases isRead
  · split at isRead
    · exact hasShares_of_parseHex (Except.ok.inj isRead)
    · split at isRead
      · exact hasShares_of_parseRgb (Except.ok.inj isRead)
      · split at isRead
        · exact hasShares_of_parseHsl (Except.ok.inj isRead)
        · split at isRead
          · exact hasShares_of_parseOklch isRead
          · have isNamed := Except.ok.inj isRead
            exact hasShares_of_mem_named _ (mem_of_lookup? isNamed)

end DesignTokens.Color
