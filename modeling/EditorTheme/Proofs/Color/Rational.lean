import EditorTheme.Proofs.Color.Exact

/-!
The color formulas over the rationals. A remainder is a fractional part, a clamped number is its projection to the
unit interval, and the channel curve is linear between the multiples of a sixth of a turn.
-/

set_option autoImplicit false
set_option relaxedAutoImplicit false

namespace EditorTheme

namespace Rational

theorem larger_eq_max (x y : Rat) : Scalar.larger x y = max x y := OrderedField.larger_eq_max x y

theorem smaller_eq_min (x y : Rat) : Scalar.smaller x y = min x y := OrderedField.smaller_eq_min x y

theorem remainder_one (x : Rat) : Scalar.remainder x 1 = Int.fract x := OrderedField.remainder_one x

theorem clamp_eq (x : Rat) : clamp x = max 0 (min 1 x) := OrderedField.clamp_eq x

theorem clamp_of_mem {x : Rat} (hlow : 0 ≤ x) (hhigh : x ≤ 1) : clamp x = x := by
  rw [clamp_eq, min_eq_right hhigh, max_eq_right hlow]

theorem wrapHue_eq (hue : Rat) : wrapHue hue = Int.fract (hue / 360) * 360 := by
  have hremainder : hue - 360 * (⌊hue / 360⌋ : Rat) = Int.fract (hue / 360) * 360 := by
    have hparts : Int.fract (hue / 360) = hue / 360 - ⌊hue / 360⌋ := rfl
    rw [hparts]
    ring
  have hbelow : Int.fract (hue / 360) * 360 < 360 := by
    have hfract := Int.fract_lt_one (hue / 360)
    linarith
  change (if 360 ≤ hue - 360 * (⌊hue / 360⌋ : Rat) then 0 else hue - 360 * (⌊hue / 360⌋ : Rat)) = _
  rw [hremainder, if_neg (not_le.mpr hbelow)]

theorem wrapHue_turns (turns : Rat) : wrapHue (turns * 360) = Int.fract turns * 360 := by
  rw [wrapHue_eq, mul_div_cancel_right₀ turns (by norm_num)]

theorem wrapHue_of_mem {hue : Rat} (hlow : 0 ≤ hue) (hhigh : hue < 360) : wrapHue hue = hue := by
  have hturns : Int.fract (hue / 360) = hue / 360 :=
    Int.fract_eq_self.mpr ⟨div_nonneg hlow (by norm_num), (div_lt_one (by norm_num)).mpr hhigh⟩
  rw [wrapHue_eq, hturns, div_mul_cancel₀ hue (by norm_num)]

theorem wrapHue_wrapHue (hue : Rat) : wrapHue (wrapHue hue) = wrapHue hue := by
  rw [wrapHue_eq hue, wrapHue_turns, Int.fract_fract]

theorem clamp_clamp (x : Rat) : clamp (clamp x) = clamp x := by
  have hlow : 0 ≤ clamp x := by
    rw [clamp_eq]
    exact le_max_left 0 _
  have hhigh : clamp x ≤ 1 := by
    rw [clamp_eq]
    exact max_le zero_le_one (min_le_left 1 x)
  exact clamp_of_mem hlow hhigh

theorem ofInt_eq (n : Int) : (Scalar.ofInt n : Rat) = n := by
  rw [scalar_eq]
  exact OrderedField.ofInt_eq n

theorem nearestInt_intCast (n : Int) : Scalar.nearestInt (n : Rat) = n := by
  rw [scalar_eq]
  exact OrderedField.nearestInt_intCast n

end Rational

namespace Color

theorem channelAt_eq (low high turns : Rat) : channelAt low high turns =
    if Int.fract turns < 1 / 6 then low + (high - low) * Int.fract turns * 6
    else if Int.fract turns < 1 / 2 then high
    else if Int.fract turns < 2 / 3 then low + (high - low) * (2 / 3 - Int.fract turns) * 6
    else low := OrderedField.channelAt_eq low high turns

theorem channelAt_congr {low high turns others : Rat} (h : Int.fract turns = Int.fract others) :
    channelAt low high turns = channelAt low high others := by
  rw [channelAt_eq, channelAt_eq, h]

theorem channelAt_add_int (low high turns : Rat) (n : Int) :
    channelAt low high (turns + n) = channelAt low high turns :=
  channelAt_congr (Int.fract_add_intCast turns n)

section Pieces

variable {low high x : Rat}

theorem fract_sixth (hlow : 0 ≤ x) (hhigh : x < 6) : Int.fract (x / 6) = x / 6 :=
  Int.fract_eq_self.mpr ⟨by linarith, by linarith⟩

theorem channelAt_rising (hlow : 0 ≤ x) (hhigh : x ≤ 1) :
    channelAt low high (x / 6) = low + (high - low) * x := by
  rw [channelAt_eq, fract_sixth hlow (by linarith)]
  rcases hhigh.lt_or_eq with hlt | rfl
  · rw [if_pos (by linarith)]
    ring
  · rw [if_neg (by norm_num), if_pos (by norm_num)]
    ring

theorem channelAt_top (hlow : 1 ≤ x) (hhigh : x ≤ 3) : channelAt low high (x / 6) = high := by
  rw [channelAt_eq, fract_sixth (by linarith) (by linarith), if_neg (by linarith)]
  rcases hhigh.lt_or_eq with hlt | rfl
  · rw [if_pos (by linarith)]
  · rw [if_neg (by norm_num), if_pos (by norm_num)]
    ring

theorem channelAt_falling (hlow : 3 ≤ x) (hhigh : x ≤ 4) :
    channelAt low high (x / 6) = low + (high - low) * (4 - x) := by
  rw [channelAt_eq, fract_sixth (by linarith) (by linarith), if_neg (by linarith), if_neg (by linarith)]
  rcases hhigh.lt_or_eq with hlt | rfl
  · rw [if_pos (by linarith)]
    ring
  · rw [if_neg (by norm_num)]
    ring

theorem channelAt_bottom (hlow : 4 ≤ x) (hhigh : x ≤ 6) : channelAt low high (x / 6) = low := by
  rcases hhigh.lt_or_eq with hlt | rfl
  · rw [channelAt_eq, fract_sixth (by linarith) hlt, if_neg (by linarith), if_neg (by linarith), if_neg (by linarith)]
  · have hturn : (6 / 6 : Rat) = 0 / 6 + (1 : Int) := by norm_num
    rw [hturn, channelAt_add_int, channelAt_rising (le_refl 0) (by norm_num)]
    ring

end Pieces

end Color

end EditorTheme
