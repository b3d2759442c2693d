import EditorTheme.Proofs.Color.Hexadecimal
import EditorTheme.Proofs.Color.Range
import EditorTheme.Proofs.Failure

/-!
Every color has three bytes for channels. Over exact scalars the channel curve stays between its extremes, and those lie
between 0 and 1 for every saturation and lightness that have been clamped; so no channel is rounded beyond a byte,
whatever the components of the color are, and the color's text is well formed.
-/

set_option autoImplicit false
set_option relaxedAutoImplicit false

namespace EditorTheme

variable {α : Type} [Scalar α] [ExactScalar α]

open ExactScalar (exists_field)

theorem ExactScalar.nearestInt_byte {x : α} (hlow : 0 ≤ x) (hhigh : x ≤ 255) :
    0 ≤ Scalar.nearestInt x ∧ Scalar.nearestInt x ≤ 255 := by
  obtain ⟨_, _, _, _, rfl⟩ := exists_field (α := α)
  have hnonneg : 0 ≤ ⌊x⌋ := Int.floor_nonneg.mpr hlow
  have hbelow : (⌊x⌋ : α) ≤ 255 := (Int.floor_le x).trans hhigh
  change 0 ≤ OrderedField.nearestInt x ∧ OrderedField.nearestInt x ≤ 255
  rcases OrderedField.nearestInt_cases x with hdown | ⟨hup, hpart⟩
  · rw [hdown]
    exact ⟨hnonneg, by exact_mod_cast hbelow⟩
  · -- What is rounded up lies strictly above its floor, which is then below 255.
    have hless : (⌊x⌋ : α) < 255 := by
      have hsum : (⌊x⌋ : α) + Int.fract x = x := Int.floor_add_fract x
      linarith
    have hstrict : ⌊x⌋ < 255 := by exact_mod_cast hless
    rw [hup]
    omega

namespace Color

theorem channelAt_mem {low high : α} (h : low ≤ high) (turns : α) :
    low ≤ channelAt low high turns ∧ channelAt low high turns ≤ high := by
  obtain ⟨_, _, _, _, rfl⟩ := exists_field (α := α)
  have hpart : ∀ part : α, 0 ≤ part → part ≤ 1 →
      low ≤ low + (high - low) * part ∧ low + (high - low) * part ≤ high := by
    intro part hlow hhigh
    have hrange : 0 ≤ high - low := sub_nonneg.mpr h
    have hstep : (high - low) * part ≤ high - low := mul_le_of_le_one_right hrange hhigh
    have hnonneg : 0 ≤ (high - low) * part := mul_nonneg hrange hlow
    exact ⟨by linarith, by linarith⟩
  have hfract := Int.fract_nonneg turns
  rw [OrderedField.channelAt_eq]
  split_ifs with hrising htop hfalling
  · rw [mul_assoc]
    exact hpart _ (by linarith) (by linarith)
  · exact ⟨h, le_rfl⟩
  · rw [mul_assoc]
    exact hpart _ (by linarith) (by linarith)
  · exact ⟨le_rfl, h⟩

/-- The largest channel is as far above the lightness as the smallest one is below it, and neither leaves the range. -/
theorem extremes_mem {saturation lightness : α} (hs : 0 ≤ saturation ∧ saturation ≤ 1)
    (hl : 0 ≤ lightness ∧ lightness ≤ 1) :
    let high := if lightness ≤ 0.5 then lightness * (1 + saturation) else lightness + saturation - lightness * saturation
    0 ≤ 2 * lightness - high ∧ 2 * lightness - high ≤ high ∧ high ≤ 1 := by
  obtain ⟨_, _, _, _, rfl⟩ := exists_field (α := α)
  have hdark : lightness * saturation ≤ lightness := mul_le_of_le_one_right hl.1 hs.2
  have hdark' : 0 ≤ lightness * saturation := mul_nonneg hl.1 hs.1
  have hbright : (1 - lightness) * saturation ≤ 1 - lightness := mul_le_of_le_one_right (sub_nonneg.mpr hl.2) hs.2
  have hbright' : 0 ≤ (1 - lightness) * saturation := mul_nonneg (sub_nonneg.mpr hl.2) hs.1
  intro high
  have hcases : high = lightness * (1 + saturation) ∧ lightness ≤ 1 / 2 ∨
      high = lightness + saturation - lightness * saturation ∧ 1 / 2 < lightness := by
    have hhalf : (0.5 : α) = 1 / 2 := by norm_num
    rw [← hhalf]
    exact (em (lightness ≤ 0.5)).imp (fun h => ⟨if_pos h, h⟩) fun h => ⟨if_neg h, not_le.mp h⟩
  clear_value high
  rcases hcases with ⟨rfl, hhalf⟩ | ⟨rfl, hhalf⟩
  · exact ⟨by linarith, by linarith, by linarith⟩
  · exact ⟨by linarith, by linarith, by linarith⟩

theorem unitChannels_mem {saturation lightness : α} (hs : 0 ≤ saturation ∧ saturation ≤ 1)
    (hl : 0 ≤ lightness ∧ lightness ≤ 1) (turns : α) :
    let c := unitChannels turns saturation lightness
    (0 ≤ c.1 ∧ c.1 ≤ 1) ∧ (0 ≤ c.2.1 ∧ c.2.1 ≤ 1) ∧ 0 ≤ c.2.2 ∧ c.2.2 ≤ 1 := by
  obtain ⟨hlow, hrange, hhigh⟩ := extremes_mem hs hl
  unfold unitChannels
  split
  · exact ⟨hl, hl, hl⟩
  · have hchannel := fun turns => channelAt_mem hrange turns
    obtain ⟨_, _, _, _, rfl⟩ := exists_field (α := α)
    have hunit := fun turns => And.intro (le_trans hlow (hchannel turns).1) (le_trans (hchannel turns).2 hhigh)
    exact ⟨hunit _, hunit _, hunit _⟩

theorem isBytes_toRgb (c : Color α) : c.toRgb.IsBytes := by
  have hordered : OrderedScalar α := ExactScalar.orderedScalar
  obtain ⟨hred, hgreen, hblue⟩ :=
    unitChannels_mem (clamp_mem c.saturation) (clamp_mem c.lightness) (wrapHue c.hue / 360)
  have hbyte : ∀ x : α, 0 ≤ x ∧ x ≤ 1 → 0 ≤ Scalar.nearestInt (x * 255) ∧ Scalar.nearestInt (x * 255) ≤ 255 := by
    rintro x ⟨hlow, hhigh⟩
    have hscaled : 0 ≤ x * 255 ∧ x * 255 ≤ 255 := by
      obtain ⟨_, _, _, _, rfl⟩ := exists_field (α := α)
      exact ⟨mul_nonneg hlow (Nat.ofNat_nonneg 255), mul_le_of_le_one_left (Nat.ofNat_nonneg 255) hhigh⟩
    exact ExactScalar.nearestInt_byte hscaled.1 hscaled.2
  exact ⟨hbyte _ hred, hbyte _ hgreen, hbyte _ hblue⟩

/-- Every color, whatever its components are, has bytes for channels; its text is a number sign and six lower case
hexadecimal digits, and it is read back as the same channels. -/
theorem hex_wellFormed (c : Color Rat) :
    c.toRgb.IsBytes ∧
    (∃ digits, c.hex.toList = '#' :: digits ∧ digits.length = 6 ∧ ∀ d ∈ digits, d ∈ "0123456789abcdef".toList) ∧
    (Rgb.ofValue (.text c.hex) : Except (Failure Rat) Rgb) = .ok c.toRgb := by
  obtain ⟨digits, htext, hlength, hdigits, hread⟩ := Rgb.hex_of_isBytes (isBytes_toRgb c)
  have hparse : (Rgb.parse c.hex : Except (ThemeError Rat) Rgb) = .ok c.toRgb := by
    rw [Rgb.parse, Color.hex, hread]
  exact ⟨isBytes_toRgb c, ⟨digits, htext, hlength, hdigits⟩, Theme.fault_eq_ok_iff.mpr hparse⟩

end Color

end EditorTheme
