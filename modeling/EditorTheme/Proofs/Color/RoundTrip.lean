import EditorTheme.Proofs.Color.Hexadecimal
import EditorTheme.Proofs.Color.Rational
import EditorTheme.Proofs.Failure
import Mathlib.Tactic.FieldSimp

/-!
From channels to hue, saturation and lightness and back. Over the rationals no channel changes: the sector of the largest
channel tells where on the channel curve the two others lie. So a hexadecimal color keeps its digits.
-/

set_option autoImplicit false
set_option relaxedAutoImplicit false

namespace EditorTheme.Color

open Rational (remainder_one)

section Sector

variable {low high next previous distance : Rat}

/-- In a sector the curve gives three channels back: the largest one, the one that follows it in the order red, green,
blue, red, and the one that precedes it. The distances of the last two from the largest one, as parts of the range,
say how far the hue lies from the middle of the sector. -/
theorem channelAt_sector (hlow : low = min next previous) (hrange : low < high) (hnext : next ≤ high)
    (hprevious : previous ≤ high)
    (hdistance : distance = (high - previous) / (high - low) - (high - next) / (high - low)) :
    channelAt low high ((2 + distance) / 6) = high ∧ channelAt low high (distance / 6) = next ∧
      channelAt low high ((4 + distance) / 6) = previous := by
  have hpositive : 0 < high - low := sub_pos.mpr hrange
  replace hdistance : distance * (high - low) = next - previous := by
    rw [hdistance, sub_mul, div_mul_cancel₀ _ hpositive.ne', div_mul_cancel₀ _ hpositive.ne']
    ring
  rcases le_total previous next with hle | hle
  · rw [min_eq_right hle] at hlow
    have hnonneg : 0 ≤ distance := by
      by_contra hneg
      have hproduct : distance * (high - low) < 0 := mul_neg_of_neg_of_pos (not_le.mp hneg) hpositive
      linarith
    have hone : distance ≤ 1 := by
      by_contra hmore
      have hproduct : 1 * (high - low) < distance * (high - low) := mul_lt_mul_of_pos_right (not_le.mp hmore) hpositive
      linarith
    refine ⟨channelAt_top (by linarith) (by linarith), ?_, ?_⟩
    · rw [channelAt_rising hnonneg hone, mul_comm, hdistance, hlow]
      ring
    · rw [channelAt_bottom (by linarith) (by linarith), hlow]
  · rw [min_eq_left hle] at hlow
    have hnonpos : distance ≤ 0 := by
      by_contra hpos
      have hproduct : 0 < distance * (high - low) := mul_pos (not_le.mp hpos) hpositive
      linarith
    have hone : -1 ≤ distance := by
      by_contra hless
      have hproduct : distance * (high - low) < -1 * (high - low) :=
        mul_lt_mul_of_pos_right (not_le.mp hless) hpositive
      linarith
    refine ⟨channelAt_top (by linarith) (by linarith), ?_, ?_⟩
    · have hturn : distance / 6 = (distance + 6) / 6 + ((-1 : Int) : Rat) := by
        push_cast
        ring
      rw [hturn, channelAt_add_int, channelAt_bottom (by linarith) (by linarith), hlow]
    · have hproduct : (high - low) * (4 - (4 + distance)) = previous - next := by
        rw [sub_add_cancel_left, mul_neg, mul_comm, hdistance, neg_sub]
      rw [channelAt_falling (by linarith) (by linarith), hproduct, hlow]
      ring

end Sector

section Hue

variable {r g b low high : Rat}

/-- The hue in sixths of a turn, not yet brought into one turn. -/
def hueSixths (r g b high range : Rat) : Rat :=
  if r = high then (high - b) / range - (high - g) / range
  else if g = high then 2 + (high - r) / range - (high - b) / range
  else 4 + (high - g) / range - (high - r) / range

theorem hueTurns_eq (r g b high range : Rat) :
    hueTurns r g b high range = Int.fract (hueSixths r g b high range / 6) := by
  have hbeq : ∀ {x y : Rat} {β : Type} (a b : β), (if x == y then a else b) = if x = y then a else b := by
    intro x y β a b
    exact if_congr beq_iff_eq rfl rfl
  rw [← remainder_one, hueSixths, ← hbeq, ← hbeq]
  rfl

theorem channelAt_sixths_add_six (low high sixths : Rat) :
    channelAt low high ((sixths + 6) / 6) = channelAt low high (sixths / 6) := by
  have hturn : (sixths + 6) / 6 = sixths / 6 + ((1 : Int) : Rat) := by
    push_cast
    ring
  rw [hturn, channelAt_add_int]

/-- Bringing a hue into one turn changes no channel; the thirds before and after it count as two and four sixths. -/
theorem channelAt_fract_sixths (low high sixths : Rat) :
    channelAt low high (Int.fract (sixths / 6) + 1 / 3) = channelAt low high ((sixths + 2) / 6) ∧
      channelAt low high (Int.fract (sixths / 6)) = channelAt low high (sixths / 6) ∧
      channelAt low high (Int.fract (sixths / 6) - 1 / 3) = channelAt low high ((sixths + 4) / 6) := by
  have hparts : Int.fract (sixths / 6) = sixths / 6 - (⌊sixths / 6⌋ : Int) := rfl
  have hafter : Int.fract (sixths / 6) + 1 / 3 = (sixths + 2) / 6 + ((-⌊sixths / 6⌋ : Int) : Rat) := by
    rw [hparts]
    push_cast
    ring
  have hbefore : Int.fract (sixths / 6) - 1 / 3 = (sixths + 4) / 6 + ((-⌊sixths / 6⌋ - 1 : Int) : Rat) := by
    rw [hparts]
    push_cast
    ring
  refine ⟨?_, channelAt_congr (Int.fract_fract _), ?_⟩
  · rw [hafter, channelAt_add_int]
  · rw [hbefore, channelAt_add_int]

theorem channelAt_hueTurns (hlow : low = min (min r g) b) (hhigh : high = max (max r g) b) (hrange : low < high) :
    channelAt low high (hueTurns r g b high (high - low) + 1 / 3) = r ∧
      channelAt low high (hueTurns r g b high (high - low)) = g ∧
      channelAt low high (hueTurns r g b high (high - low) - 1 / 3) = b := by
  have hr : r ≤ high := hhigh ▸ (le_max_left r g).trans (le_max_left _ b)
  have hg : g ≤ high := hhigh ▸ (le_max_right r g).trans (le_max_left _ b)
  have hb : b ≤ high := hhigh ▸ le_max_right _ b
  have hne : high - low ≠ 0 := (sub_pos.mpr hrange).ne'
  obtain ⟨hafter, hat, hbefore⟩ := channelAt_fract_sixths low high (hueSixths r g b high (high - low))
  rw [hueTurns_eq, hafter, hat, hbefore]
  by_cases hred : r = high
  · -- Red is largest: green follows it and blue precedes it.
    have hmin : low = min g b := by
      rw [hlow, hred, min_eq_right hg]
    obtain ⟨hlargest, hnext, hprevious⟩ := channelAt_sector hmin hrange hg hb rfl
    rw [hueSixths, if_pos hred, add_comm _ 2, add_comm _ 4]
    exact ⟨hlargest.trans hred.symm, hnext, hprevious⟩
  · by_cases hgreen : g = high
    · have hmin : low = min b r := by
        rw [hlow, hgreen, min_eq_left hr, min_comm]
      obtain ⟨hlargest, hnext, hprevious⟩ := channelAt_sector hmin hrange hb hr rfl
      have hsum : ∀ d : Rat, 2 + d + 2 = 4 + d ∧ 2 + d + 4 = d + 6 := fun d => ⟨by ring, by ring⟩
      rw [hueSixths, if_neg hred, if_pos hgreen, add_sub_assoc, (hsum _).1, (hsum _).2, channelAt_sixths_add_six]
      exact ⟨hprevious, hlargest.trans hgreen.symm, hnext⟩
    · have hblue : b = high := by
        have hbelow : max r g < high := max_lt (hr.lt_of_ne hred) (hg.lt_of_ne hgreen)
        rw [hhigh] at hbelow ⊢
        exact (max_eq_right_iff.mpr ((lt_max_iff.mp hbelow).resolve_left (lt_irrefl _)).le).symm
      have hmin : low = min r g := by
        rw [hlow, hblue, min_eq_left ((min_le_left r g).trans hr)]
      obtain ⟨hlargest, hnext, hprevious⟩ := channelAt_sector hmin hrange hr hg rfl
      have hsum : ∀ d : Rat, 4 + d + 2 = d + 6 ∧ 4 + d + 4 = 2 + d + 6 := fun d => ⟨by ring, by ring⟩
      rw [hueSixths, if_neg hred, if_neg hgreen, add_sub_assoc, (hsum _).1, (hsum _).2, channelAt_sixths_add_six,
        channelAt_sixths_add_six]
      exact ⟨hnext, hprevious, hlargest.trans hblue.symm⟩

end Hue

section Components

variable {r g b low high : Rat}

/-- The part of the largest range that the lightness leaves, for extreme channels that differ. -/
def saturationOf (low high : Rat) : Rat :=
  if (high + low) / 2 ≤ 1 / 2 then (high - low) / (high + low) else (high - low) / (2 - (high + low))

def highOf (saturation lightness : Rat) : Rat :=
  if lightness ≤ 1 / 2 then lightness * (1 + saturation) else lightness + saturation - lightness * saturation

theorem ofUnitChannels_eq (hlow : low = min (min r g) b) (hhigh : high = max (max r g) b) :
    ofUnitChannels r g b = if low = high then ⟨0, 0, (high + low) / 2⟩
      else ⟨hueTurns r g b high (high - low), saturationOf low high, (high + low) / 2⟩ := by
  have hhalf : (0.5 : Rat) = 1 / 2 := by norm_num
  rw [saturationOf, ← hhalf, hlow, hhigh, ← Rational.larger_eq_max, ← Rational.larger_eq_max,
    ← Rational.smaller_eq_min, ← Rational.smaller_eq_min]
  exact if_congr beq_iff_eq rfl rfl

theorem unitChannels_eq (turns saturation lightness : Rat) :
    unitChannels turns saturation lightness = if saturation = 0 then (lightness, lightness, lightness)
      else
        let high := highOf saturation lightness
        let low := 2 * lightness - high
        (channelAt low high (turns + 1 / 3), channelAt low high turns, channelAt low high (turns - 1 / 3)) := by
  have hhalf : (0.5 : Rat) = 1 / 2 := by norm_num
  rw [highOf, ← hhalf]
  exact if_congr beq_iff_eq rfl rfl

theorem saturationOf_mem (hlow : 0 ≤ low) (hrange : low < high) (hhigh : high ≤ 1) :
    0 < saturationOf low high ∧ saturationOf low high ≤ 1 := by
  have hpositive : 0 < high - low := sub_pos.mpr hrange
  unfold saturationOf
  split_ifs
  · have hsum : 0 < high + low := by linarith
    exact ⟨div_pos hpositive hsum, (div_le_one hsum).mpr (by linarith)⟩
  · have hsum : 0 < 2 - (high + low) := by linarith
    exact ⟨div_pos hpositive hsum, (div_le_one hsum).mpr (by linarith)⟩

theorem highOf_saturationOf (hlow : 0 ≤ low) (hrange : low < high) (hhigh : high ≤ 1) :
    highOf (saturationOf low high) ((high + low) / 2) = high := by
  unfold highOf saturationOf
  split_ifs
  · have hsum : high + low ≠ 0 := by linarith
    field_simp
    ring
  · have hsum : 2 - (high + low) ≠ 0 := by linarith
    field_simp
    ring

theorem unitChannels_ofUnitChannels (hlow : 0 ≤ min (min r g) b) (hhigh : max (max r g) b ≤ 1) :
    let c := ofUnitChannels r g b
    Int.fract c.hue = c.hue ∧ clamp c.saturation = c.saturation ∧ clamp c.lightness = c.lightness ∧
      unitChannels c.hue c.saturation c.lightness = (r, g, b) := by
  obtain ⟨low, hl⟩ : ∃ low, low = min (min r g) b := ⟨_, rfl⟩
  obtain ⟨high, hh⟩ : ∃ high, high = max (max r g) b := ⟨_, rfl⟩
  rw [← hl] at hlow
  rw [← hh] at hhigh
  have hle : low ≤ high := by
    rw [hl, hh]
    exact (min_le_right _ b).trans (le_max_right _ b)
  have hlightness : clamp ((high + low) / 2) = (high + low) / 2 := Rational.clamp_of_mem (by linarith) (by linarith)
  rw [ofUnitChannels_eq hl hh]
  split_ifs with hequal
  · -- All channels are the same one, which is the lightness.
    have hsame : ∀ x, low ≤ x → x ≤ high → (high + low) / 2 = x := by
      intro x hx hx'
      linarith
    have hr : (high + low) / 2 = r := hsame r (hl ▸ (min_le_left _ b).trans (min_le_left r g))
      (hh ▸ (le_max_left r g).trans (le_max_left _ b))
    have hg : (high + low) / 2 = g := hsame g (hl ▸ (min_le_left _ b).trans (min_le_right r g))
      (hh ▸ (le_max_right r g).trans (le_max_left _ b))
    have hb : (high + low) / 2 = b := hsame b (hl ▸ min_le_right _ b) (hh ▸ le_max_right _ b)
    refine ⟨Int.fract_zero, Rational.clamp_of_mem (le_refl 0) zero_le_one, hlightness, ?_⟩
    rw [unitChannels_eq, if_pos rfl]
    exact Prod.ext hr (Prod.ext hg hb)
  · have hrange : low < high := hle.lt_of_ne hequal
    obtain ⟨hpositive, hone⟩ := saturationOf_mem hlow hrange hhigh
    obtain ⟨hafter, hat, hbefore⟩ := channelAt_hueTurns hl hh hrange
    have hfract : Int.fract (hueTurns r g b high (high - low)) = hueTurns r g b high (high - low) := by
      rw [hueTurns_eq, Int.fract_fract]
    have hlowest : 2 * ((high + low) / 2) - high = low := by ring
    refine ⟨hfract, Rational.clamp_of_mem hpositive.le hone, hlightness, ?_⟩
    rw [unitChannels_eq, if_neg hpositive.ne']
    simp only [highOf_saturationOf hlow hrange hhigh, hlowest, hafter, hat, hbefore]

end Components

section Channels

theorem channels_eq (c : Color Rat) :
    c.channels =
      let unit := unitChannels (wrapHue c.hue / 360) (clamp c.saturation) (clamp c.lightness)
      (unit.1 * 255, unit.2.1 * 255, unit.2.2 * 255) := by
  unfold channels
  rfl

theorem channels_confined (c : Color Rat) :
    (⟨wrapHue c.hue, clamp c.saturation, clamp c.lightness⟩ : Color Rat).channels = c.channels := by
  rw [channels_eq, channels_eq, Rational.wrapHue_wrapHue, Rational.clamp_clamp, Rational.clamp_clamp]

theorem channels_ofChannels {r g b : Rat} (hr : 0 ≤ r ∧ r ≤ 255) (hg : 0 ≤ g ∧ g ≤ 255) (hb : 0 ≤ b ∧ b ≤ 255) :
    (ofChannels r g b).channels = (r, g, b) := by
  have hunit : ∀ x : Rat, 0 ≤ x ∧ x ≤ 255 → 0 ≤ x / 255 ∧ x / 255 ≤ 1 :=
    fun x h => ⟨div_nonneg h.1 (by norm_num), (div_le_one (by norm_num)).mpr h.2⟩
  have hscale : ∀ x : Rat, x / 255 * 255 = x := fun x => div_mul_cancel₀ x (by norm_num)
  obtain ⟨hhue, hsaturation, hlightness, hback⟩ := unitChannels_ofUnitChannels
    (le_min (le_min (hunit r hr).1 (hunit g hg).1) (hunit b hb).1)
    (max_le (max_le (hunit r hr).2 (hunit g hg).2) (hunit b hb).2)
  have hcomponents : ofChannels r g b = ⟨wrapHue ((ofUnitChannels (r / 255) (g / 255) (b / 255)).hue * 360),
      (ofUnitChannels (r / 255) (g / 255) (b / 255)).saturation,
      (ofUnitChannels (r / 255) (g / 255) (b / 255)).lightness⟩ := rfl
  rw [channels_eq, hcomponents, hsaturation, hlightness, Rational.wrapHue_turns, hhue, Rational.wrapHue_turns, hhue,
    mul_div_cancel_right₀ _ (by norm_num : (360 : Rat) ≠ 0), hback]
  simp only [hscale]

theorem toRgb_of_channels {c : Color Rat} {rgb : Rgb} (h : c.channels = ((rgb.red : Rat), (rgb.green : Rat), (rgb.blue : Rat))) :
    c.toRgb = rgb := by
  have hrounded : c.toRgb = ⟨Scalar.nearestInt c.channels.1, Scalar.nearestInt c.channels.2.1,
      Scalar.nearestInt c.channels.2.2⟩ := rfl
  rw [hrounded, h]
  simp only [Rational.nearestInt_intCast]

end Channels

section Texts

theorem componentsOfRgb_eq (rgb : Rgb) :
    (componentsOfRgb rgb : Color Rat) = ofChannels (rgb.red : Rat) (rgb.green : Rat) (rgb.blue : Rat) := by
  rw [componentsOfRgb, Rational.ofInt_eq, Rational.ofInt_eq, Rational.ofInt_eq]

theorem toRgb_ofRgb {rgb : Rgb} (h : rgb.IsBytes) :
    ∃ c : Color Rat, ofRgb rgb = .ok c ∧ c.toRgb = rgb := by
  obtain ⟨hred, hgreen, hblue⟩ := h
  have hcast : ∀ n : Int, 0 ≤ n ∧ n ≤ 255 → 0 ≤ (n : Rat) ∧ (n : Rat) ≤ 255 :=
    fun n hn => ⟨by exact_mod_cast hn.1, by exact_mod_cast hn.2⟩
  have hchannels := channels_ofChannels (hcast _ hred) (hcast _ hgreen) (hcast _ hblue)
  rw [← componentsOfRgb_eq, ← channels_confined] at hchannels
  exact ⟨_, rfl, toRgb_of_channels hchannels⟩

theorem exists_text_of_ofValue {α : Type} {literal : Value} {rgb : Rgb}
    (h : (Rgb.ofValue literal : Except (Failure α) Rgb) = .ok rgb) :
    ∃ text, literal = .text text ∧ Rgb.ofHex? text.toList = some rgb := by
  cases literal with
  | text s =>
    refine ⟨s, rfl, ?_⟩
    have hparse : (Rgb.parse s : Except (ThemeError α) Rgb) = .ok rgb := Theme.fault_eq_ok_iff.mp h
    unfold Rgb.parse at hparse
    cases hread : Rgb.ofHex? s.toList with
    | none =>
      rw [hread] at hparse
      cases hparse
    | some found =>
      rw [hread] at hparse
      exact congrArg some (Except.ok.inj hparse)
  | _ => cases h

/-- Over the rationals, channels from 0 to 255 come back from hue, saturation and lightness as they were; and every
literal that is read as a color has six digits, whose color is written with the same digits in lower case. -/
theorem hex_round_trip :
    (∀ r g b : Rat, 0 ≤ r ∧ r ≤ 255 → 0 ≤ g ∧ g ≤ 255 → 0 ≤ b ∧ b ≤ 255 →
      (ofChannels r g b).channels = (r, g, b)) ∧
    ∀ (literal : Value) (rgb : Rgb), (Rgb.ofValue literal : Except (Failure Rat) Rgb) = .ok rgb →
      ∃ (digits : List Char) (c : Color Rat), digits.length = 6 ∧
        (literal = .text (String.ofList digits) ∨ literal = .text (String.ofList ('#' :: digits))) ∧
        ofHex literal = .ok c ∧ c.hex = String.ofList ('#' :: digits.map Char.toLower) := by
  refine ⟨fun r g b hr hg hb => channels_ofChannels hr hg hb, ?_⟩
  intro literal rgb h
  obtain ⟨text, rfl, hread⟩ := exists_text_of_ofValue h
  obtain ⟨digits, htext, hlength, hbytes, hhex⟩ := Rgb.hex_of_ofHex? hread
  obtain ⟨c, hc, hrgb⟩ := toRgb_ofRgb hbytes
  refine ⟨digits, c, hlength, ?_, ?_, ?_⟩
  · rcases htext with hplain | hsigned
    · exact Or.inl (by rw [← hplain, String.ofList_toList])
    · exact Or.inr (by rw [← hsigned, String.ofList_toList])
  · rw [ofHex, bind_of_ok h]
    exact Theme.fault_eq_ok_iff.mpr hc
  · rw [hex, hrgb, ← hhex, String.ofList_toList]

theorem hex_round_trip_orange :
    (ofChannels 255 (128 / 3) 0 : Color Rat).channels = (255, 128 / 3, 0) ∧
      ∃ c : Color Rat, ofHex (.text "fF8040") = .ok c ∧ c.hex = "#ff8040" := by
  obtain ⟨hchannels, htexts⟩ := hex_round_trip
  refine ⟨hchannels 255 (128 / 3) 0 (by norm_num) (by norm_num) (by norm_num), ?_⟩
  obtain ⟨digits, c, hlength, htext, hread, hhex⟩ := htexts (.text "fF8040") ⟨255, 128, 64⟩ (by rfl)
  have hdigits : digits = "fF8040".toList := by
    rcases htext with hplain | hsigned
    · rw [Value.text.inj hplain, String.toList_ofList]
    · -- With a number sign in front there would be seven characters.
      have hlonger : "fF8040".toList.length = ('#' :: digits).length := by
        rw [Value.text.inj hsigned, String.toList_ofList]
      rw [List.length_cons, hlength] at hlonger
      exact absurd hlonger (by decide)
  rw [hdigits] at hhex
  exact ⟨c, hread, hhex⟩

end Texts

end EditorTheme.Color
