import DesignTokens.Color.Hue
import DesignTokens.Proofs.Reading
import Mathlib.Data.Rat.Floor
import Mathlib.Order.Interval.Set.Defs
import Mathlib.Tactic.Linarith
import Mathlib.Tactic.NormNum
import Mathlib.Tactic.Ring

namespace DesignTokens.Color

/-!
# Hues in exact arithmetic

Less what they share, the channels of a color lie on the edges of a hexagon: one
of them is the chroma, one is zero, and the third rises or falls between the two.
The hue is the place on the hexagon, so both conversions are told by it, and each
takes the result of the other back.
-/

/-- Exact arithmetic on fractions. -/
instance : Arithmetic ℚ where
  ofNat value := value
  less left right := decide (left < right)
  equal left right := decide (left = right)
  remainder dividend divisor := dividend - divisor * ⌊dividend / divisor⌋

@[simp] theorem ofNat_eq_cast
    (value : ℕ) :
    (Arithmetic.ofNat value : ℚ) = value :=
  rfl

@[simp] theorem less_iff
    {left right : ℚ} :
    Arithmetic.less left right = true ↔ left < right :=
  decide_eq_true_iff

@[simp] theorem equal_iff
    {left right : ℚ} :
    Arithmetic.equal left right = true ↔ left = right :=
  decide_eq_true_iff

@[simp] theorem larger_eq_max
    (left right : ℚ) :
    larger left right = max left right := by
  rw [larger, max_def_lt]
  simp only [less_iff]

@[simp] theorem smaller_eq_min
    (left right : ℚ) :
    smaller left right = min left right := by
  rw [smaller, min_comm, min_def_lt]
  simp only [less_iff]

@[simp] theorem magnitude_eq_abs
    (value : ℚ) :
    magnitude value = |value| := by
  simp only [magnitude, less_iff, ofNat_eq_cast, Nat.cast_zero, zero_sub]
  split
  · rename_i isNegative
    rw [abs_of_neg isNegative]
  · rename_i isPositive
    rw [abs_of_nonneg (not_lt.mp isPositive)]

/-- Limiting leaves a number between 0 and 1 as it is. -/
theorem limit_of_mem
    {value : ℚ}
    (isShare : value ∈ Set.Icc (0 : ℚ) 1) :
    limit value = value := by
  simp [limit, isShare.1, isShare.2]

/-- Dividing by any number but zero is no fault. -/
theorem divide_of_ne_zero
    {divisor : ℚ}
    (isThere : divisor ≠ 0)
    (value : ℚ) :
    divide value divisor = .ok (value / divisor) := by
  simp [divide, isThere]

/-- The remainder is what goes beyond the last multiple of the divisor. -/
theorem remainder_of_between
    {value divisor : ℚ}
    (isPositive : 0 < divisor)
    (times : ℤ)
    (isReached : divisor * times ≤ value)
    (isLast : value < divisor * times + divisor) :
    Arithmetic.remainder value divisor = value - divisor * times := by
  have isFloor : ⌊value / divisor⌋ = times := by
    rw [Int.floor_eq_iff, le_div_iff₀ isPositive, div_lt_iff₀ isPositive]
    constructor
    · linarith
    · linarith
  simp only [Arithmetic.remainder, isFloor]

/-! The hexagon of hues. -/

/--
How far a channel between two corners has risen, by its place in
sixths of the circle.
-/
def riseAt (sixth : ℚ) : ℚ :=
  1 - |Arithmetic.remainder sixth 2 - 1|

/-- Behind an even corner the channel rises. -/
theorem riseAt_behind
    {corner part : ℚ}
    (half : ℤ)
    (isEven : corner = 2 * half)
    (isPart : part ∈ Set.Icc (0 : ℚ) 1) :
    riseAt (corner + part) = part := by
  obtain ⟨isPositive, isSmall⟩ := isPart
  rw [riseAt, remainder_of_between two_pos half (by linarith) (by linarith),
    abs_of_nonpos (by linarith)]
  linarith

/-- Before an even corner the channel falls. -/
theorem riseAt_before
    {corner part : ℚ}
    (half : ℤ)
    (isEven : corner = 2 * half)
    (isPart : part ∈ Set.Icc (0 : ℚ) 1) :
    riseAt (corner - part) = part := by
  rcases isPart.1.eq_or_lt with rfl | isPositive
  · simpa using riseAt_behind half isEven isPart
  · have isSmall := isPart.2
    have isBefore : ((half - 1 : ℤ) : ℚ) = half - 1 := by push_cast; rfl
    rw [riseAt, remainder_of_between two_pos (half - 1) (by linarith) (by linarith),
      abs_of_nonneg (by linarith)]
    linarith

/-- The channels of a hue by its place in sixths of the circle. -/
theorem hueChannels_sixth
    (sixth chroma middle : ℚ) :
    hueChannels (60 * sixth) chroma middle =
      if sixth < 1 then (chroma, middle, 0)
      else if sixth < 2 then (middle, chroma, 0)
      else if sixth < 3 then (0, chroma, middle)
      else if sixth < 4 then (0, middle, chroma)
      else if sixth < 5 then (middle, 0, chroma)
      else (chroma, 0, middle) := by
  have isBelow (count : ℕ) : 60 * sixth < ((60 * count : ℕ) : ℚ) ↔
      sixth < count := by
    rw [Nat.cast_mul]
    exact mul_lt_mul_iff_right₀ (by norm_num)
  have first := isBelow 1
  have second := isBelow 2
  have third := isBelow 3
  have fourth := isBelow 4
  have fifth := isBelow 5
  norm_num at first second third fourth fifth
  simp only [hueChannels, less_iff, ofNat_eq_cast]
  norm_num [first, second, third, fourth, fifth]

/-- A place on the hexagon, in sixths of the circle, and the channels there. -/
inductive OnHexagon (chroma : ℚ) : ℚ → ℚ × ℚ × ℚ → Prop where
  | behindRed {part : ℚ} :
      part ∈ Set.Icc (0 : ℚ) 1 →
      OnHexagon chroma part (chroma, chroma * part, 0)
  | beforeGreen {part : ℚ} :
      part ∈ Set.Icc (0 : ℚ) 1 →
      OnHexagon chroma (2 - part) (chroma * part, chroma, 0)
  | behindGreen {part : ℚ} :
      part ∈ Set.Icc (0 : ℚ) 1 →
      OnHexagon chroma (2 + part) (0, chroma, chroma * part)
  | beforeBlue {part : ℚ} :
      part ∈ Set.Icc (0 : ℚ) 1 →
      OnHexagon chroma (4 - part) (0, chroma * part, chroma)
  | behindBlue {part : ℚ} :
      part ∈ Set.Icc (0 : ℚ) 1 →
      OnHexagon chroma (4 + part) (chroma * part, 0, chroma)
  /-- Red itself is where the circle begins, and not where it ends. -/
  | beforeRed {part : ℚ} :
      part ∈ Set.Ioc (0 : ℚ) 1 →
      OnHexagon chroma (6 - part) (chroma, 0, chroma * part)

namespace OnHexagon

variable {chroma sixth : ℚ} {channels : ℚ × ℚ × ℚ}

/-- The hexagon has six sixths. -/
theorem mem_circle
    (onHexagon : OnHexagon chroma sixth channels) :
    sixth ∈ Set.Ico (0 : ℚ) 6 := by
  cases onHexagon
  all_goals
    rename_i isPart
    obtain ⟨isPositive, isSmall⟩ := isPart
    constructor
    · linarith
    · linarith

/-- The channels of a hue are those at its place on the hexagon. -/
theorem hueChannels_eq
    (onHexagon : OnHexagon chroma sixth channels) :
    hueChannels (60 * sixth) chroma (chroma * riseAt sixth) = channels := by
  rw [hueChannels_sixth]
  -- Two neighbours agree on the corner between them, which is taken by the later
  -- one.
  cases onHexagon with
  | behindRed isPart =>
      have rise : riseAt sixth = sixth := by
        simpa using riseAt_behind 0 (by norm_num : (0 : ℚ) = 2 * (0 : ℤ)) isPart
      obtain ⟨isPositive, isSmall⟩ := isPart
      rw [rise]
      rcases isSmall.eq_or_lt with rfl | isInside
      · norm_num
      · rw [if_pos isInside]
  | @beforeGreen part isPart =>
      rw [riseAt_before 1 (by norm_num) isPart]
      obtain ⟨isPositive, isSmall⟩ := isPart
      rcases isPositive.eq_or_lt with rfl | isInside
      · norm_num
      · rw [if_neg (by linarith), if_pos (by linarith)]
  | @behindGreen part isPart =>
      rw [riseAt_behind 1 (by norm_num) isPart]
      obtain ⟨isPositive, isSmall⟩ := isPart
      rcases isSmall.eq_or_lt with rfl | isInside
      · norm_num
      · rw [if_neg (by linarith), if_neg (by linarith), if_pos (by linarith)]
  | @beforeBlue part isPart =>
      rw [riseAt_before 2 (by norm_num) isPart]
      obtain ⟨isPositive, isSmall⟩ := isPart
      rcases isPositive.eq_or_lt with rfl | isInside
      · norm_num
      · rw [if_neg (by linarith), if_neg (by linarith), if_neg (by linarith),
          if_pos (by linarith)]
  | @behindBlue part isPart =>
      rw [riseAt_behind 2 (by norm_num) isPart]
      obtain ⟨isPositive, isSmall⟩ := isPart
      rcases isSmall.eq_or_lt with rfl | isInside
      · norm_num
      · rw [if_neg (by linarith), if_neg (by linarith), if_neg (by linarith),
          if_neg (by linarith), if_pos (by linarith)]
  | @beforeRed part isPart =>
      rw [riseAt_before 3 (by norm_num) (Set.Ioc_subset_Icc_self isPart)]
      obtain ⟨isPositive, isSmall⟩ := isPart
      rw [if_neg (by linarith), if_neg (by linarith), if_neg (by linarith),
        if_neg (by linarith), if_neg (by linarith)]

/-- A hue is turned into the channels at its place, over what they share. -/
theorem ofHsl_eq
    (onHexagon : OnHexagon chroma sixth channels)
    {saturation lightness : ℚ}
    (isChroma : (1 - |2 * lightness - 1|) * saturation = chroma) :
    ofHsl (60 * sixth) saturation lightness =
      (limit (channels.1 + (lightness - chroma / 2)),
        limit (channels.2.1 + (lightness - chroma / 2)),
        limit (channels.2.2 + (lightness - chroma / 2))) := by
  obtain ⟨isPositive, isInside⟩ := onHexagon.mem_circle
  have inCircle : Arithmetic.remainder (60 * sixth) 360 = 60 * sixth := by
    rw [remainder_of_between (by norm_num) 0]
    · simp
    · norm_num
      linarith
    · norm_num
      linarith
  have inSixths : 60 * sixth / 60 = sixth := by
    rw [mul_div_assoc, mul_div_cancel₀]
    norm_num
  have placed := onHexagon.hueChannels_eq
  unfold ofHsl
  simp only [ofNat_eq_cast, magnitude_eq_abs, Nat.cast_ofNat, Nat.cast_one,
    inCircle, inSixths, isChroma]
  rw [← placed, riseAt]

end OnHexagon

/-! Channels on the hexagon. -/

section Channels

variable (r g b : ℚ)

/-- The highest of three channels. -/
def highest : ℚ :=
  max (max r g) b

/-- The lowest of three channels. -/
def lowest : ℚ :=
  min (min r g) b

/-- The place of channels on the hexagon, in sixths of the circle. -/
def sixthOf : ℚ :=
  if highest r g b = r then
    (g - b) / (highest r g b - lowest r g b) + (if g < b then 6 else 0)
  else if highest r g b = g then (b - r) / (highest r g b - lowest r g b) + 2
  else (r - g) / (highest r g b - lowest r g b) + 4

/-- How much of the chroma that the lightness leaves room for the channels have. -/
def saturationOf : ℚ :=
  if 1 / 2 < (highest r g b + lowest r g b) / 2 then
    (highest r g b - lowest r g b) / (2 - highest r g b - lowest r g b)
  else (highest r g b - lowest r g b) / (highest r g b + lowest r g b)

end Channels

variable {r g b : ℚ}

theorem le_highest :
    r ≤ highest r g b ∧ g ≤ highest r g b ∧ b ≤ highest r g b := by
  simp [highest]

theorem highest_cases :
    highest r g b = r ∨ highest r g b = g ∨ highest r g b = b := by
  unfold highest
  rcases max_choice (max r g) b with isOther | isBlue
  · rw [isOther]
    exact (max_choice r g).imp_right .inl
  · exact .inr (.inr isBlue)

theorem lowest_le :
    lowest r g b ≤ r ∧ lowest r g b ≤ g ∧ lowest r g b ≤ b := by
  simp [lowest]

theorem lowest_eq_red
    (belowGreen : r ≤ g)
    (belowBlue : r ≤ b) :
    lowest r g b = r := by
  rw [lowest, min_eq_left belowGreen, min_eq_left belowBlue]

theorem lowest_eq_green
    (belowRed : g ≤ r)
    (belowBlue : g ≤ b) :
    lowest r g b = g := by
  rw [lowest, min_eq_right belowRed, min_eq_left belowBlue]

theorem lowest_eq_blue
    (belowRed : b ≤ r)
    (belowGreen : b ≤ g) :
    lowest r g b = b := by
  rw [lowest, min_eq_right (le_min belowRed belowGreen)]

/-- What is left of a channel, as a part of the chroma. -/
theorem part_of_chroma
    {channel chroma : ℚ}
    (isThere : 0 < chroma)
    (isPositive : 0 ≤ channel)
    (isInside : channel ≤ chroma) :
    channel / chroma ∈ Set.Icc (0 : ℚ) 1 ∧ chroma * (channel / chroma) = channel :=
  ⟨⟨div_nonneg isPositive isThere.le, (div_le_one isThere).mpr isInside⟩,
    mul_div_cancel₀ channel isThere.ne'⟩

/-!
The highest channel and the lowest one tell the edge, and the third one the place
on it.
-/

theorem onHexagon_of_red
    (isRed : highest r g b = r)
    (differ : lowest r g b < highest r g b) :
    OnHexagon (highest r g b - lowest r g b) (sixthOf r g b)
      (r - lowest r g b, g - lowest r g b, b - lowest r g b) := by
  obtain ⟨_, greenBelow, blueBelow⟩ : r ≤ highest r g b ∧ g ≤ highest r g b ∧
    b ≤ highest r g b := le_highest
  rw [sixthOf, if_pos isRed]
  rw [isRed] at greenBelow blueBelow differ ⊢
  by_cases beforeRed : g < b
  · have isLowest := lowest_eq_green greenBelow beforeRed.le
    rw [isLowest] at differ ⊢
    obtain ⟨isShare, isPart⟩ := part_of_chroma (sub_pos.mpr differ)
      (sub_nonneg.mpr beforeRed.le) (sub_le_sub_right blueBelow g)
    have isPositive := div_pos (sub_pos.mpr beforeRed) (sub_pos.mpr differ)
    have place : OnHexagon (r - g) _ _ := .beforeRed ⟨isPositive, isShare.2⟩
    rw [isPart] at place
    rw [if_pos beforeRed, sub_self]
    convert place using 1
    ring
  · have isLowest := lowest_eq_blue blueBelow (not_lt.mp beforeRed)
    rw [isLowest] at differ ⊢
    obtain ⟨isShare, isPart⟩ := part_of_chroma (sub_pos.mpr differ)
      (sub_nonneg.mpr (not_lt.mp beforeRed)) (sub_le_sub_right greenBelow b)
    have place : OnHexagon (r - b) _ _ := .behindRed isShare
    rw [isPart] at place
    rw [if_neg beforeRed, sub_self, add_zero]
    exact place

theorem onHexagon_of_green
    (notRed : highest r g b ≠ r)
    (isGreen : highest r g b = g)
    (differ : lowest r g b < highest r g b) :
    OnHexagon (highest r g b - lowest r g b) (sixthOf r g b)
      (r - lowest r g b, g - lowest r g b, b - lowest r g b) := by
  obtain ⟨redBelow, _, blueBelow⟩ : r ≤ highest r g b ∧ g ≤ highest r g b ∧
    b ≤ highest r g b := le_highest
  rw [sixthOf, if_neg notRed, if_pos isGreen]
  rw [isGreen] at redBelow blueBelow differ ⊢
  by_cases behindGreen : r ≤ b
  · have isLowest := lowest_eq_red redBelow behindGreen
    rw [isLowest] at differ ⊢
    obtain ⟨isShare, isPart⟩ := part_of_chroma (sub_pos.mpr differ)
      (sub_nonneg.mpr behindGreen) (sub_le_sub_right blueBelow r)
    have place : OnHexagon (g - r) _ _ := .behindGreen isShare
    rw [isPart] at place
    rw [sub_self, add_comm]
    exact place
  · have isLowest := lowest_eq_blue (not_le.mp behindGreen).le blueBelow
    rw [isLowest] at differ ⊢
    obtain ⟨isShare, isPart⟩ := part_of_chroma (sub_pos.mpr differ)
      (sub_nonneg.mpr (not_le.mp behindGreen).le) (sub_le_sub_right redBelow b)
    have place : OnHexagon (g - b) _ _ := .beforeGreen isShare
    rw [isPart] at place
    rw [sub_self]
    convert place using 1
    ring

theorem onHexagon_of_blue
    (notRed : highest r g b ≠ r)
    (notGreen : highest r g b ≠ g)
    (differ : lowest r g b < highest r g b) :
    OnHexagon (highest r g b - lowest r g b) (sixthOf r g b)
      (r - lowest r g b, g - lowest r g b, b - lowest r g b) := by
  obtain ⟨redBelow, greenBelow, _⟩ : r ≤ highest r g b ∧ g ≤ highest r g b ∧
    b ≤ highest r g b := le_highest
  have isBlue := (highest_cases.resolve_left notRed).resolve_left notGreen
  rw [sixthOf, if_neg notRed, if_neg notGreen]
  rw [isBlue] at redBelow greenBelow differ ⊢
  by_cases behindBlue : g ≤ r
  · have isLowest := lowest_eq_green behindBlue greenBelow
    rw [isLowest] at differ ⊢
    obtain ⟨isShare, isPart⟩ := part_of_chroma (sub_pos.mpr differ)
      (sub_nonneg.mpr behindBlue) (sub_le_sub_right redBelow g)
    have place : OnHexagon (b - g) _ _ := .behindBlue isShare
    rw [isPart] at place
    rw [sub_self, add_comm]
    exact place
  · have isLowest := lowest_eq_red (not_le.mp behindBlue).le redBelow
    rw [isLowest] at differ ⊢
    obtain ⟨isShare, isPart⟩ := part_of_chroma (sub_pos.mpr differ)
      (sub_nonneg.mpr (not_le.mp behindBlue).le) (sub_le_sub_right greenBelow r)
    have place : OnHexagon (b - r) _ _ := .beforeBlue isShare
    rw [isPart] at place
    rw [sub_self]
    convert place using 1
    ring

/-- Channels that differ stand on the hexagon at their place. -/
theorem onHexagon_sixthOf
    (differ : lowest r g b < highest r g b) :
    OnHexagon (highest r g b - lowest r g b) (sixthOf r g b)
      (r - lowest r g b, g - lowest r g b, b - lowest r g b) := by
  by_cases isRed : highest r g b = r
  · exact onHexagon_of_red isRed differ
  by_cases isGreen : highest r g b = g
  · exact onHexagon_of_green isRed isGreen differ
  · exact onHexagon_of_blue isRed isGreen differ

/-- The chroma is the part of the room that the lightness leaves for it. -/
theorem saturationOf_spec
    (isFirst : 0 ≤ lowest r g b)
    (isLast : highest r g b ≤ 1)
    (differ : lowest r g b < highest r g b) :
    saturationOf r g b ∈ Set.Icc (0 : ℚ) 1 ∧
      (1 - |2 * ((highest r g b + lowest r g b) / 2) - 1|) * saturationOf r g b =
        highest r g b - lowest r g b := by
  rw [mul_div_cancel₀ _ (two_ne_zero : (2 : ℚ) ≠ 0), saturationOf]
  split
  · have isRoom : 1 - |highest r g b + lowest r g b - 1| =
        2 - highest r g b - lowest r g b := by
      rw [abs_of_nonneg (by linarith)]
      ring
    rw [isRoom]
    exact part_of_chroma (by linarith) (by linarith) (by linarith)
  · have isRoom : 1 - |highest r g b + lowest r g b - 1| =
        highest r g b + lowest r g b := by
      rw [abs_of_nonpos (by linarith)]
      ring
    rw [isRoom]
    exact part_of_chroma (by linarith) (by linarith) (by linarith)

/-- Channels that differ are converted without dividing by zero. -/
theorem toHsl_of_differ
    (isFirst : 0 ≤ lowest r g b)
    (isLast : highest r g b ≤ 1)
    (differ : lowest r g b < highest r g b) :
    toHsl r g b =
      .ok ⟨sixthOf r g b / 6, saturationOf r g b,
        (highest r g b + lowest r g b) / 2⟩ := by
  have isSpread : highest r g b - lowest r g b ≠ 0 := by linarith
  have isRoomAbove : 2 - highest r g b - lowest r g b ≠ 0 := by linarith
  have isRoomBelow : highest r g b + lowest r g b ≠ 0 := by linarith
  have isHigh : max (max r g) b = highest r g b := rfl
  have isLow : min (min r g) b = lowest r g b := rfl
  unfold toHsl sixthOf saturationOf
  simp only [larger_eq_max, smaller_eq_min, equal_iff, less_iff, ofNat_eq_cast,
    isHigh, isLow, divide_of_ne_zero isSpread, Nat.cast_ofNat, Nat.cast_one,
    Nat.cast_zero, differ.ne', if_false, divide_of_ne_zero isRoomAbove,
    divide_of_ne_zero isRoomBelow, ok_bind]
  split_ifs <;> rfl

/-- Equal channels have no hue and no saturation. -/
theorem toHsl_of_grey
    (isGrey : highest r g b = lowest r g b) :
    toHsl r g b = .ok ⟨0, 0, (highest r g b + lowest r g b) / 2⟩ := by
  have isHigh : max (max r g) b = highest r g b := rfl
  have isLow : min (min r g) b = lowest r g b := rfl
  unfold toHsl
  simp only [larger_eq_max, smaller_eq_min, equal_iff, ofNat_eq_cast, isHigh, isLow,
    isGrey, if_true]
  rfl

/--
The conversion gives the place of the channels on the hexagon and their
part of the room.
-/
theorem exists_place
    (isFirst : 0 ≤ lowest r g b)
    (isLast : highest r g b ≤ 1) :
    ∃ sixth saturation,
      toHsl r g b =
        .ok ⟨sixth / 6, saturation, (highest r g b + lowest r g b) / 2⟩ ∧
        OnHexagon (highest r g b - lowest r g b) sixth
          (r - lowest r g b, g - lowest r g b, b - lowest r g b) ∧
        saturation ∈ Set.Icc (0 : ℚ) 1 ∧
        (1 - |2 * ((highest r g b + lowest r g b) / 2) - 1|) * saturation =
          highest r g b - lowest r g b := by
  obtain ⟨redAbove, greenAbove, blueAbove⟩ : lowest r g b ≤ r ∧ lowest r g b ≤ g ∧
    lowest r g b ≤ b := lowest_le
  obtain ⟨redBelow, greenBelow, blueBelow⟩ : r ≤ highest r g b ∧ g ≤ highest r g b ∧
    b ≤ highest r g b := le_highest
  rcases (redAbove.trans redBelow).eq_or_lt with isGrey | differ
  · have isRed : r - lowest r g b = 0 := by linarith
    have isGreen : g - lowest r g b = 0 := by linarith
    have isBlue : b - lowest r g b = 0 := by linarith
    have place : OnHexagon 0 0 _ := .behindRed ⟨le_rfl, zero_le_one⟩
    refine ⟨0, 0, ?_, ?_, ⟨le_rfl, zero_le_one⟩, ?_⟩
    · rw [toHsl_of_grey isGrey.symm, zero_div]
    · rw [isRed, isGreen, isBlue, ← isGrey, sub_self]
      simpa using place
    · rw [← isGrey, mul_zero, sub_self]
  · obtain ⟨isShare, isChroma⟩ := saturationOf_spec isFirst isLast differ
    exact ⟨sixthOf r g b, saturationOf r g b, toHsl_of_differ isFirst isLast differ,
      onHexagon_sixthOf differ, isShare, isChroma⟩

/--
In exact arithmetic, channels between 0 and 1 have a hue, a saturation and a
lightness: nothing is divided by zero.  The hue is a part of the circle that is
less than all of it, saturation and lightness are between 0 and 1, and the three
are turned back into the same channels.
-/
theorem ofHsl_toHsl
    (isRed : r ∈ Set.Icc (0 : ℚ) 1)
    (isGreen : g ∈ Set.Icc (0 : ℚ) 1)
    (isBlue : b ∈ Set.Icc (0 : ℚ) 1) :
    ∃ hsl, toHsl r g b = .ok hsl ∧
      hsl.hue ∈ Set.Ico (0 : ℚ) 1 ∧
      hsl.saturation ∈ Set.Icc (0 : ℚ) 1 ∧
      hsl.lightness ∈ Set.Icc (0 : ℚ) 1 ∧
      ofHsl (360 * hsl.hue) hsl.saturation hsl.lightness = (r, g, b) := by
  have isFirst : 0 ≤ lowest r g b := le_min (le_min isRed.1 isGreen.1) isBlue.1
  have isLast : highest r g b ≤ 1 := max_le (max_le isRed.2 isGreen.2) isBlue.2
  have isOrdered : lowest r g b ≤ highest r g b := lowest_le.1.trans le_highest.1
  obtain ⟨sixth, saturation, isConverted, place, isShare, isChroma⟩ :=
    exists_place isFirst isLast
  obtain ⟨isPositive, isInside⟩ := place.mem_circle
  refine ⟨_, isConverted, ⟨by linarith, by linarith⟩, isShare,
    ⟨by linarith, by linarith⟩, ?_⟩
  have inSixths : 360 * (sixth / 6) = 60 * sixth := by ring
  -- What the channels share is their lowest one, so each of them comes back as it
  -- was.
  have isShared (channel : ℚ) :
      channel - lowest r g b +
        ((highest r g b + lowest r g b) / 2 - (highest r g b - lowest r g b) / 2) =
          channel := by
    ring
  simp only [inSixths, place.ofHsl_eq isChroma, isShared]
  rw [limit_of_mem isRed, limit_of_mem isGreen, limit_of_mem isBlue]

/--
Red and blue are equal and higher than green, as at the corner
between blue and red.
-/
theorem ofHsl_toHsl_of_purple :
    (1 / 2 : ℚ) ∈ Set.Icc (0 : ℚ) 1 ∧ (1 / 4 : ℚ) ∈ Set.Icc (0 : ℚ) 1 ∧
      ∃ hsl, toHsl (1 / 2 : ℚ) (1 / 4) (1 / 2) = .ok hsl ∧
        hsl.hue ∈ Set.Ico (0 : ℚ) 1 ∧
        hsl.saturation ∈ Set.Icc (0 : ℚ) 1 ∧
        hsl.lightness ∈ Set.Icc (0 : ℚ) 1 ∧
        ofHsl (360 * hsl.hue) hsl.saturation hsl.lightness =
          (1 / 2, 1 / 4, 1 / 2) := by
  have isHalf : (1 / 2 : ℚ) ∈ Set.Icc (0 : ℚ) 1 := by
    constructor
    · norm_num
    · norm_num
  have isQuarter : (1 / 4 : ℚ) ∈ Set.Icc (0 : ℚ) 1 := by
    constructor
    · norm_num
    · norm_num
  exact ⟨isHalf, isQuarter, ofHsl_toHsl isHalf isQuarter isHalf⟩

end DesignTokens.Color
