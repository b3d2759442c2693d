import Mathlib.Analysis.SpecialFunctions.Pow.Real
import EditorTheme.Color.Contrast
import EditorTheme.Proofs.Color.ByteRange

/-!
The contrast of two colors over exact scalars. The linear intensity of a byte lies between 0 and 1 on both sides of the
threshold of the channel curve, and the weights of the channels add up to 1; so the luminance of every color lies between
0 and 1, and the contrast of two of them between 1 and 21. Of the power in the curve only this is used: it does not fall
between 0 and 1 and leaves both where they are. The reals have such a power with the exponent 2.4.
-/

set_option autoImplicit false
set_option relaxedAutoImplicit false

namespace EditorTheme

section Field

variable {α : Type} [Field α] [LinearOrder α] [IsStrictOrderedRing α] {x y : α}

theorem raised_ratio_bounds (hx : 0 ≤ x ∧ x ≤ 1) (hy : 0 ≤ y ∧ y ≤ 1) :
    1 ≤ (max x y + 0.05) / (min x y + 0.05) ∧ (max x y + 0.05) / (min x y + 0.05) ≤ 21 ∧
      ((max x y + 0.05) / (min x y + 0.05) = 1 ↔ x = y) := by
  have hlow : 0 ≤ min x y := le_min hx.1 hy.1
  have hhigh : max x y ≤ 1 := max_le hx.2 hy.2
  have hraised : 0 < min x y + 0.05 := by linarith
  refine ⟨?_, ?_, ?_⟩
  · rw [one_le_div hraised]
    linarith [min_le_max (a := x) (b := y)]
  · rw [div_le_iff₀ hraised]
    linarith
  · rw [div_eq_one_iff_eq hraised.ne', add_left_inj, eq_comm]
    exact inf_eq_sup

end Field

theorem OrderedField.linearChannel_eq {α : Type} [Field α] [LinearOrder α] [FloorRing α] (power : α → α) (n : Int) :
    @linearChannel α (scalar α) power n =
      if (n : α) / 255 ≤ 0.03928 then (n : α) / 255 / 12.92 else power (((n : α) / 255 + 0.055) / 1.055) := by
  rw [← ofInt_eq n]
  rfl

variable {α : Type} [Scalar α]

/-- A power that does not fall between 0 and 1 and leaves both where they are. -/
structure UnitPower (power : α → α) : Prop where
  monotone : ∀ {x y : α}, 0 ≤ x → x ≤ y → y ≤ 1 → power x ≤ power y
  zero : power 0 = 0
  one : power 1 = 1

variable [ExactScalar α] {power : α → α}

open ExactScalar (exists_field)

theorem UnitPower.mem (h : UnitPower power) {x : α} (hlow : 0 ≤ x) (hhigh : x ≤ 1) :
    0 ≤ power x ∧ power x ≤ 1 := by
  obtain ⟨hmonotone, hzero, hone⟩ := h
  obtain ⟨_, _, _, _, rfl⟩ := exists_field (α := α)
  have hleast := hmonotone (le_refl 0) hlow hhigh
  have hgreatest := hmonotone hlow hhigh (le_refl 1)
  exact ⟨hzero ▸ hleast, hone ▸ hgreatest⟩

theorem linearChannel_mem (h : UnitPower power) {n : Int} (hn : 0 ≤ n ∧ n ≤ 255) :
    0 ≤ linearChannel power n ∧ linearChannel power n ≤ 1 := by
  have hpower := fun x => h.mem (x := x)
  obtain ⟨_, _, _, _, rfl⟩ := exists_field (α := α)
  have hbyte : (0 : α) ≤ n ∧ (n : α) ≤ 255 := ⟨by exact_mod_cast hn.1, by exact_mod_cast hn.2⟩
  have hunit : 0 ≤ (n : α) / 255 ∧ (n : α) / 255 ≤ 1 := ⟨by linarith, by linarith⟩
  rw [OrderedField.linearChannel_eq]
  split_ifs with hdark
  · exact ⟨div_nonneg hunit.1 (by norm_num), (div_le_one (by norm_num)).mpr (by linarith)⟩
  · exact hpower _ (div_nonneg (by linarith) (by norm_num)) ((div_le_one (by norm_num)).mpr (by linarith))

/-- The luminance of bytes lies between 0 and 1, since the weights of the channels add up to 1. -/
theorem Rgb.luminance_mem (h : UnitPower power) {c : Rgb} (hc : c.IsBytes) :
    0 ≤ c.luminance power ∧ c.luminance power ≤ 1 := by
  obtain ⟨hred, hgreen, hblue⟩ := hc
  have hr := linearChannel_mem h hred
  have hg := linearChannel_mem h hgreen
  have hb := linearChannel_mem h hblue
  unfold Rgb.luminance
  generalize linearChannel power c.red = r at hr ⊢
  generalize linearChannel power c.green = g at hg ⊢
  generalize linearChannel power c.blue = b at hb ⊢
  obtain ⟨_, _, _, _, rfl⟩ := exists_field (α := α)
  change 0 ≤ (0.2126 : α) * r + 0.7152 * g + 0.0722 * b ∧ (0.2126 : α) * r + 0.7152 * g + 0.0722 * b ≤ 1
  exact ⟨by linarith, by linarith⟩

theorem Rgb.luminance_white (h : UnitPower power) : (⟨255, 255, 255⟩ : Rgb).luminance power = 1 := by
  have hone := h.one
  obtain ⟨_, _, _, _, rfl⟩ := exists_field (α := α)
  have hchannel : @linearChannel α (OrderedField.scalar α) power 255 = 1 := by
    have hunit : ((255 : Int) : α) / 255 = 1 := by norm_num
    have hscaled : ((1 : α) + 0.055) / 1.055 = 1 := by norm_num
    rw [OrderedField.linearChannel_eq, hunit, if_neg (by norm_num), hscaled]
    exact hone
  unfold luminance
  simp only [hchannel]
  change (0.2126 : α) * 1 + 0.7152 * 1 + 0.0722 * 1 = 1
  norm_num

theorem Rgb.luminance_black (power : α → α) : (⟨0, 0, 0⟩ : Rgb).luminance power = 0 := by
  obtain ⟨_, _, _, _, rfl⟩ := exists_field (α := α)
  have hchannel : @linearChannel α (OrderedField.scalar α) power 0 = 0 := by
    have hunit : ((0 : Int) : α) / 255 = 0 := by norm_num
    rw [OrderedField.linearChannel_eq, hunit, if_pos (by norm_num), zero_div]
  unfold luminance
  simp only [hchannel]
  change (0.2126 : α) * 0 + 0.7152 * 0 + 0.0722 * 0 = 0
  norm_num

theorem clamp_zero : clamp (0 : α) = 0 := by
  obtain ⟨_, _, _, _, rfl⟩ := exists_field (α := α)
  exact (OrderedField.clamp_eq 0).trans (max_eq_left (min_le_right 1 0))

theorem clamp_one : clamp (1 : α) = 1 := by
  obtain ⟨_, _, _, _, rfl⟩ := exists_field (α := α)
  exact (OrderedField.clamp_eq 1).trans ((max_eq_right (le_min zero_le_one zero_le_one)).trans (min_self 1))

namespace Color

theorem luminance_mem (h : UnitPower power) (c : Color α) :
    0 ≤ c.toRgb.luminance power ∧ c.toRgb.luminance power ≤ 1 := Rgb.luminance_mem h (isBytes_toRgb c)

theorem contrast_comm (power : α → α) (a b : Color α) : a.contrast power b = b.contrast power a := by
  unfold contrast
  generalize a.toRgb.luminance power = x
  generalize b.toRgb.luminance power = y
  obtain ⟨_, _, _, _, rfl⟩ := exists_field (α := α)
  simp only [OrderedField.larger_eq_max, OrderedField.smaller_eq_min, max_comm, min_comm]

section Extremes

theorem toRgb_gray (hue : α) {lightness : α} (h : clamp lightness = lightness) {channel : Int}
    (hchannel : Scalar.nearestInt (lightness * 255) = channel) :
    (⟨hue, 0, lightness⟩ : Color α).toRgb = ⟨channel, channel, channel⟩ := by
  have hgray : ∀ turns : α, unitChannels turns 0 lightness = (lightness, lightness, lightness) := by
    intro turns
    obtain ⟨_, _, _, _, rfl⟩ := exists_field (α := α)
    exact if_pos (decide_eq_true rfl)
  unfold toRgb channels
  simp only [clamp_zero, h, hgray, hchannel]

theorem toRgb_white (hue : α) : (⟨hue, 0, 1⟩ : Color α).toRgb = ⟨255, 255, 255⟩ := by
  refine toRgb_gray hue clamp_one ?_
  obtain ⟨_, _, _, _, rfl⟩ := exists_field (α := α)
  change OrderedField.nearestInt ((1 : α) * 255) = 255
  rw [one_mul]
  exact_mod_cast OrderedField.nearestInt_intCast (α := α) 255

theorem toRgb_black (hue : α) : (⟨hue, 0, 0⟩ : Color α).toRgb = ⟨0, 0, 0⟩ := by
  refine toRgb_gray hue clamp_zero ?_
  obtain ⟨_, _, _, _, rfl⟩ := exists_field (α := α)
  change OrderedField.nearestInt ((0 : α) * 255) = 0
  rw [zero_mul]
  exact_mod_cast OrderedField.nearestInt_intCast (α := α) 0

theorem contrast_white_black (h : UnitPower power) (hue other : α) :
    (⟨hue, 0, 1⟩ : Color α).contrast power ⟨other, 0, 0⟩ = 21 := by
  unfold contrast
  rw [toRgb_white, toRgb_black, Rgb.luminance_white h, Rgb.luminance_black]
  obtain ⟨_, _, _, _, rfl⟩ := exists_field (α := α)
  simp only [OrderedField.larger_eq_max, OrderedField.smaller_eq_min]
  change (max (1 : α) 0 + 0.05) / (min 1 0 + 0.05) = 21
  rw [max_eq_left zero_le_one, min_eq_right zero_le_one]
  norm_num

end Extremes

/-- The contrast of two colors, whatever their components are, does not depend on their order and lies between 1 and 21;
it is 1 exactly if they have the same luminance. The luminance of three bytes lies between 0 and 1. -/
theorem contrast_bounds (h : UnitPower power) :
    (∀ a b : Color α, a.contrast power b = b.contrast power a ∧ 1 ≤ a.contrast power b ∧ a.contrast power b ≤ 21 ∧
      (a.contrast power b = 1 ↔ a.toRgb.luminance power = b.toRgb.luminance power)) ∧
    ∀ c : Rgb, c.IsBytes → 0 ≤ c.luminance power ∧ c.luminance power ≤ 1 := by
  refine ⟨fun a b => ⟨contrast_comm power a b, ?_⟩, fun c hc => Rgb.luminance_mem h hc⟩
  have hx := luminance_mem h a
  have hy := luminance_mem h b
  unfold contrast
  generalize a.toRgb.luminance power = x at hx ⊢
  generalize b.toRgb.luminance power = y at hy ⊢
  obtain ⟨_, _, _, _, rfl⟩ := exists_field (α := α)
  simp only [OrderedField.larger_eq_max, OrderedField.smaller_eq_min]
  exact raised_ratio_bounds hx hy

end Color

section Reals

-- Before the instance below, so that the literals are those of Mathlib and not the numerals of the scalars.
private noncomputable def curve (x : Real) : Real := x ^ (2.4 : Real)

private noncomputable def flare : Color Real := ⟨-7.5, 1.25, 0.5⟩

private noncomputable def snow : Color Real := ⟨200, 0, 1⟩

private noncomputable def pitch : Color Real := ⟨0, 0, 0⟩

noncomputable instance : Scalar Real := OrderedField.scalar Real

instance : ExactScalar Real := ⟨inferInstance, inferInstance, inferInstance, inferInstance, rfl⟩

theorem unitPower_rpow {exponent : Real} (h : 0 < exponent) : UnitPower fun x : Real => x ^ exponent where
  monotone hlow hle _ := Real.rpow_le_rpow hlow hle (le_of_lt h)
  zero := Real.zero_rpow h.ne'
  one := Real.one_rpow exponent

theorem contrast_bounds_display : UnitPower curve ∧ flare.contrast curve snow = snow.contrast curve flare ∧
    1 ≤ flare.contrast curve snow ∧ flare.contrast curve snow ≤ 21 ∧
    snow.contrast curve pitch = 21 ∧ snow.toRgb.luminance curve ≠ pitch.toRgb.luminance curve ∧
    (⟨10, 11, 255⟩ : Rgb).IsBytes ∧ (⟨10, 11, 255⟩ : Rgb).luminance curve ≤ 1 := by
  have hcurve : UnitPower curve := unitPower_rpow (by norm_num)
  obtain ⟨hcontrast, hluminance⟩ := Color.contrast_bounds hcurve
  obtain ⟨hcomm, hlow, hhigh, -⟩ := hcontrast flare snow
  obtain ⟨-, -, -, hequal⟩ := hcontrast snow pitch
  have hfar : snow.contrast curve pitch = 21 := Color.contrast_white_black hcurve 200 0
  have hbytes : (⟨10, 11, 255⟩ : Rgb).IsBytes := ⟨by decide, by decide, by decide⟩
  refine ⟨hcurve, hcomm, hlow, hhigh, hfar, fun h => ?_, hbytes, (hluminance _ hbytes).2⟩
  have hone : (21 : Real) = 1 := hfar.symm.trans (hequal.mpr h)
  norm_num at hone

end Reals

end EditorTheme
