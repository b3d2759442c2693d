import EditorTheme.Proofs.Double.Comparison

/-!
Wrapping doubles into a full turn. A double without a sign that lies in the turn is left as it is, bit by bit, and a
wrapped double is of this kind; so wrapping it again changes nothing.
-/

set_option autoImplicit false
set_option relaxedAutoImplicit false

namespace EditorTheme.Double

open Float.Model Float.Model.UnpackedFloat

variable {x y : Float}

theorem eq_of_toBits (h : x.toBits.toNat = y.toBits.toNat) : x = y := by
  obtain ⟨⟨bits, hvalid⟩⟩ := x
  obtain ⟨⟨others, hvalid'⟩⟩ := y
  obtain rfl : bits = others := UInt64.toNat_inj.mp h
  rfl

theorem ofMagnitude_magnitude (hx : x.isFinite = true) (hsign : x.toBits.toNat ≤ 2047 * 2 ^ 52) :
    ofMagnitude (magnitude x) = x := by
  obtain ⟨s, e, m, hfields, htop⟩ := exists_finite_fields hx
  have hlt := hfields.mantissa_lt
  have hle := hfields.exponent_le
  have hbits := hfields.toNat_toBits
  have hrounded := hfields.roundedBits
  have hpositive : Sign.positive.toBitVec.toNat = 0 := rfl
  have hnegative : Sign.negative.toBitVec.toNat = 1 := rfl
  refine eq_of_toBits ?_
  rw [(hasFields_ofMagnitude (magnitude x)).toNat_toBits, hrounded]
  cases s <;> omega

/-- Whole turns are only taken from what lies beyond the turn. -/
theorem remainder_turn_of_mem (hsign : x.toBits.toNat ≤ 2047 * 2 ^ 52) (h : 0 ≤ x ∧ x < 360) : remainder x 360 = x := by
  obtain ⟨hx, hlow, hhigh⟩ := mem_turn_iff.mp h
  obtain ⟨-, -, hturn⟩ := finite_bounds
  have hne : ((360 : Float) != 0) = true := by decide
  have hpositive : isNegative (360 : Float) = false :=
    Bool.eq_false_iff.mpr (hasFields_turn.isNegative.not.mpr Sign.noConfusion)
  have hunits : units x = magnitude x := (magnitude_of_nonneg hlow).symm
  have hself := ofMagnitude_magnitude hx hsign
  rw [← units_bounds.2.2] at hhigh
  have hrest : (units x).tmod (units 360) = units x := Int.tmod_eq_of_lt hlow hhigh
  unfold remainder
  simp only [hx, hturn, hne, Bool.and_true, if_true, hrest, hpositive, Bool.false_eq_true, if_false]
  split_ifs with hzero hagree
  · have hnone : magnitude x = 0 := by omega
    rw [← hself, hnone]
    decide
  · rw [ofUnits, if_neg (not_lt.mpr hlow), hunits, Int.natAbs_natCast, hself]
  · exact absurd (by omega) hagree

theorem not_turn_le (h : 0 ≤ x ∧ x < 360) : ¬ 360 ≤ x := by
  obtain ⟨-, -, hturn⟩ := finite_bounds
  obtain ⟨hx, -⟩ := mem_turn_iff.mp h
  have hbelow := (lt_iff_units hx hturn).mp h.2
  rw [le_iff_units hturn hx]
  omega

theorem wrapHue_of_mem (hsign : x.toBits.toNat ≤ 2047 * 2 ^ 52) (h : 0 ≤ x ∧ x < 360) : wrapHue x = x := by
  have hrest : Scalar.remainder x 360 = x := remainder_turn_of_mem hsign h
  unfold wrapHue
  rw [hrest]
  exact if_neg (not_turn_le h)

theorem toBits_wrapHue_le (hx : x.isFinite = true) : (wrapHue x).toBits.toNat ≤ 2047 * 2 ^ 52 := by
  unfold wrapHue
  simp only
  split
  · decide
  · exact toBits_remainder_turn_le hx

theorem wrapHue_wrapHue (hx : x.isFinite = true) : wrapHue (wrapHue x) = wrapHue x :=
  wrapHue_of_mem (toBits_wrapHue_le hx) (wrapHue_mem hx)

theorem isFinite_wrapHue (hx : x.isFinite = true) : (wrapHue x).isFinite = true := (mem_turn_iff.mp (wrapHue_mem hx)).1

end EditorTheme.Double
