import EditorTheme.Proofs.Color.Denominators
import EditorTheme.Proofs.Double.Division
import EditorTheme.Proofs.Double.Naturals

/-!
Bytes as channels of doubles. Where two of them differ as doubles, neither their sum nor their difference is rounded to
zero, and as one of them is no more than 255/256, their sum is not rounded to 2.
-/

set_option autoImplicit false
set_option relaxedAutoImplicit false

namespace EditorTheme.Double

open Float.Model Float.Model.UnpackedFloat

section Equality

variable {x y : Float}

theorem compare_self {f : UnpackedFloat} (h : f ≠ .notANumber) : f.compare f = some .eq := by
  have hswap := compare_swap f f
  cases hcompare : f.compare f with
  | none => exact absurd ((compare_eq_none_iff f f).mp hcompare) (not_or.mpr ⟨h, h⟩)
  | some order =>
    rw [hcompare, Option.map_some] at hswap
    cases order <;> first | rfl | cases hswap

theorem unpack_ne_notANumber (h : x.isFinite = true) : x.toModel.unpack ≠ .notANumber := by
  intro hnan
  have hfinite : x.toModel.unpack.isFinite = true := h
  rw [hnan] at hfinite
  cases hfinite

theorem beq_of_units (hx : x.isFinite = true) (hy : y.isFinite = true) (h : units x = units y) : (x == y) = true := by
  change (x.toModel.unpack.compare y.toModel.unpack == some .eq) = true
  rw [beq_iff_eq]
  by_cases hzero : units x = 0
  · have hunpack : ∀ z : Float, z.isFinite = true → units z = 0 → ∃ s, z.toModel.unpack = .zero s := by
      intro z hz hnone
      cases model_of_isFinite hz with
      | zero _ hunpack => exact ⟨_, hunpack⟩
      | @finite s m k hm hunits =>
        have hpos : 0 < m * 2 ^ k := Nat.mul_pos hm (Nat.two_pow_pos k)
        exact absurd (hunits.symm.trans hnone) (apply_ne_zero s hpos)
    obtain ⟨s, hs⟩ := hunpack x hx hzero
    obtain ⟨t, ht⟩ := hunpack y hy (h ▸ hzero)
    rw [hs, ht]
    rfl
  · have hbits : x.toBits.toNat = y.toBits.toNat := by
      rw [toNat_toBits_of_units hx hzero, toNat_toBits_of_units hy (h ▸ hzero), h]
    obtain ⟨s, e, m, hfields⟩ := exists_hasFields x
    have hother : HasFields y s e m := ⟨hfields.exponent_le, hfields.mantissa_lt, hbits ▸ hfields.toNat_toBits⟩
    rw [hother.unpack, ← hfields.unpack]
    exact compare_self (unpack_ne_notANumber hx)

end Equality

section Channels

theorem scaled {a b c d k : Nat} (h : a = b * 2 ^ c) (hk : k = c + d) : a * 2 ^ d = b * 2 ^ k := by
  rw [h, hk, pow_add, mul_assoc]

theorem unitsPerOne_eq_steps : unitsPerOne = 256 * 2 ^ 1066 := unitsPerOne_eq_mul (c := 8) (by decide) (by decide)

theorem units_unitChannel_le {n : Nat} (hn : n ≤ 255) {e m : Nat} (he : 0 < e) (htop : e < 2047) (hm : m < 2 ^ 52)
    (h : n * unitsPerOne ≤ (2 ^ 52 + m) * 2 ^ (e - 1) * 255) : (unitChannel (n : Int) : Float).isFinite = true ∧
      0 ≤ units (unitChannel n) ∧ units (unitChannel n) ≤ (((2 ^ 52 + m) * 2 ^ (e - 1) : Nat) : Int) := by
  have hchannel : (unitChannel (n : Int) : Float) = Scalar.ofNat n / Scalar.ofNat 255 := by
    have hnonneg : ¬ (n : Int) < 0 := by omega
    unfold unitChannel Scalar.ofInt
    rw [if_neg hnonneg, Int.natAbs_natCast]
    rfl
  rcases Nat.eq_zero_or_pos n with rfl | hpos
  · have hblack : (unitChannel 0 : Float).isFinite = true ∧ units (unitChannel 0) = 0 :=
      HasFields.units_zero ⟨by decide, by decide, by decide⟩
    exact ⟨hblack.1, hblack.2.ge, hblack.2.trans_le (Int.natCast_nonneg _)⟩
  · obtain ⟨hfinite, hunits⟩ := units_ofNat (d := n) (by omega)
    obtain ⟨hfinite', hunits'⟩ := units_ofNat (d := 255) (by decide)
    have hscaled : n * unitsPerOne * unitsPerOne ≤ (2 ^ 52 + m) * 2 ^ (e - 1) * (255 * unitsPerOne) := by
      rw [← mul_assoc _ 255]
      exact Nat.mul_le_mul_right _ h
    rw [hchannel]
    exact units_div_le hfinite hfinite' (Nat.mul_pos hpos unitsPerOne_pos) (Nat.mul_pos (by decide) unitsPerOne_pos)
      hunits hunits' he htop hm hscaled

theorem units_channel_le {n : Int} (h : 0 ≤ n ∧ n < 255) : (unitChannel n : Float).isFinite = true ∧
    0 ≤ units (unitChannel n) ∧ units (unitChannel n) ≤ ((255 * 2 ^ 1066 : Nat) : Int) := by
  obtain ⟨k, rfl⟩ := Int.eq_ofNat_of_zero_le h.1
  have hscale : (2 ^ 52 + 254 * 2 ^ 44) * 2 ^ (1022 - 1) = 255 * 2 ^ 1066 := scaled (c := 45) (by decide) (by decide)
  rw [← hscale]
  refine units_unitChannel_le (by omega) (by decide) (by decide) (by decide) ?_
  rw [hscale, unitsPerOne_eq_steps]
  omega

theorem units_white_le : (unitChannel 255 : Float).isFinite = true ∧
    0 ≤ units (unitChannel 255) ∧ units (unitChannel 255) ≤ ((256 * 2 ^ 1066 : Nat) : Int) := by
  have hscale : (2 ^ 52 + 0) * 2 ^ (1023 - 1) = 256 * 2 ^ 1066 := scaled (c := 44) (by decide) (by decide)
  rw [← hscale]
  refine units_unitChannel_le (n := 255) le_rfl (by decide) (by decide) (by decide) ?_
  rw [hscale, unitsPerOne_eq_steps, mul_comm]

theorem units_two : units (2 : Float) = ((512 * 2 ^ 1066 : Nat) : Int) := by
  have hunit := unitsPerOne_eq_steps
  have hdouble : 2 * unitsPerOne = 512 * 2 ^ 1066 := by omega
  exact hdouble ▸ (units_ofNat (d := 2) (by decide)).2

theorem units_byte_nonneg {n : Int} (h : 0 ≤ n ∧ n ≤ 255) :
    (unitChannel n : Float).isFinite = true ∧ 0 ≤ units (unitChannel n) := by
  rcases lt_or_eq_of_le h.2 with hlt | rfl
  · obtain ⟨hfinite, hnonneg, -⟩ := units_channel_le ⟨h.1, hlt⟩
    exact ⟨hfinite, hnonneg⟩
  · exact ⟨units_white_le.1, units_white_le.2.1⟩

theorem units_add_channels_le {low high : Int} (hlow : 0 ≤ low ∧ low ≤ 255) (hhigh : 0 ≤ high ∧ high ≤ 255)
    (hne : low ≠ high) :
    units (unitChannel high) + units (unitChannel low) ≤ ((511 * 2 ^ 1066 : Nat) : Int) := by
  have hle : ∀ n : Int, 0 ≤ n ∧ n ≤ 255 → units (unitChannel n) ≤ ((256 * 2 ^ 1066 : Nat) : Int) ∧
      (n < 255 → units (unitChannel n) ≤ ((255 * 2 ^ 1066 : Nat) : Int)) := by
    intro n hn
    rcases lt_or_eq_of_le hn.2 with hlt | rfl
    · have hbelow := (units_channel_le ⟨hn.1, hlt⟩).2.2
      exact ⟨hbelow.trans (by omega), fun _ => hbelow⟩
    · exact ⟨units_white_le.2.2, fun hlt => absurd hlt (lt_irrefl _)⟩
  obtain ⟨hlow', hlowlt⟩ := hle low hlow
  obtain ⟨hhigh', hhighlt⟩ := hle high hhigh
  generalize units (unitChannel low) = x at *
  generalize units (unitChannel high) = y at *
  generalize (2 : Nat) ^ 1066 = u at *
  have hbelow : low < 255 ∨ high < 255 := by omega
  rcases hbelow with hlt | hlt
  · have hx := hlowlt hlt
    omega
  · have hy := hhighlt hlt
    omega

theorem divisible_of_bytes {low high : Int} (hlow : 0 ≤ low ∧ low ≤ 255) (hhigh : 0 ≤ high ∧ high ≤ 255)
    (hdiffer : ((unitChannel low : Float) == unitChannel high) = false) :
    Divisible (unitChannel low : Float) (unitChannel high) := by
  obtain ⟨hfinite, hnonneg⟩ := units_byte_nonneg hlow
  obtain ⟨hfinite', hnonneg'⟩ := units_byte_nonneg hhigh
  have hunits : units (unitChannel low) ≠ units (unitChannel high) := by
    intro hsame
    rw [beq_of_units hfinite hfinite' hsame] at hdiffer
    cases hdiffer
  have hbound := units_add_channels_le hlow hhigh (fun heq => hunits (congrArg _ (congrArg _ heq)))
  generalize (unitChannel low : Float) = x at *
  generalize (unitChannel high : Float) = y at *
  refine ⟨Bool.eq_false_iff.mpr fun hzero => ?_, Bool.eq_false_iff.mpr fun hzero => ?_,
    Bool.eq_false_iff.mpr fun hzero => ?_⟩
  · have hsum := units_add_of_beq_zero hfinite' hfinite hzero
    omega
  · exact hunits (units_sub_of_beq_zero hfinite' hfinite hzero).symm
  · obtain ⟨hsum, hle⟩ := units_add_le hfinite' hfinite (a := 511) (k := 1066) (by decide) (by decide) (by omega) hbound
    have htwo : (2 : Float).isFinite = true := (units_ofNat (d := 2) (by decide)).1
    have hsame := units_sub_of_beq_zero htwo hsum hzero
    rw [units_two] at hsame
    have hpos : 0 < (2 : Nat) ^ 1066 := pow_pos two_pos 1066
    omega

instance : DividesChannels Float where
  divisible := divisible_of_bytes

end Channels

end EditorTheme.Double
