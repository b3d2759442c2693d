import EditorTheme.Proofs.Double.Addition

/-!
Naturals as doubles. A natural of 53 bits is converted without rounding; a literal is one that is multiplied by the power
of ten of its exponent, for a whole number by one, and the product is not rounded either.
-/

set_option autoImplicit false
set_option relaxedAutoImplicit false

namespace EditorTheme.Double

open Float.Model Float.Model.UnpackedFloat
open Decimal (nearestDiv)

section Product

variable {m₁ m₂ k₁ k₂ k : Nat}

/-- The product of two numbers, if it has 53 bits, has the bits of the double nearest to the product of their units. -/
theorem toNat_pack_mul {s₁ s₂ : Sign} (h₁ : 0 < m₁) (h₂ : 0 < m₂) (hfull : 2 ^ 52 ≤ m₁ * m₂)
    (hscale : k₁ + k₂ = k + 1074) :
    (UnpackedFloat.pack Format.binary64 (UnpackedFloat.mul Format.binary64 (.finite s₁ m₁ ((k₁ : Int) - 1074) h₁)
      (.finite s₂ m₂ ((k₂ : Int) - 1074) h₂))).toNat =
      (s₁ * s₂).toBitVec.toNat * 2 ^ 63 + min (roundedBits (m₁ * m₂ * 2 ^ k)) (2047 * 2 ^ 52) := by
  have hne : m₁ * m₂ ≠ 0 := (Nat.mul_pos h₁ h₂).ne'
  have hexponent : (k₁ : Int) - 1074 + ((k₂ : Int) - 1074) = (k : Int) - 1074 := by omega
  have hlog : 52 ≤ (m₁ * m₂).log2 := (Nat.le_log2 hne).mpr hfull
  have hscaled := log2_mul_two_pow hne k
  -- The product has all the bits that are kept, so none has to be filled in.
  have hround : UnpackedFloat.round Format.binary64 (s₁ * s₂) (m₁ * m₂) ((k : Int) - 1074) =
      UnpackedFloat.roundWithAccuracy Format.binary64 (s₁ * s₂) (m₁ * m₂) ((k : Int) - 1074) .exact := by
    have hcount : ((k : Int) - 1074 - (((m₁ * m₂ * 2 ^ k).log2 - 52 : Nat) - 1074)).toNat = 0 := by omega
    unfold UnpackedFloat.round decreaseExponent
    dsimp only
    rw [targetExponent_units hne, hcount]
    simp
  have hproduct : UnpackedFloat.mul Format.binary64 (.finite s₁ m₁ ((k₁ : Int) - 1074) h₁)
      (.finite s₂ m₂ ((k₂ : Int) - 1074) h₂) =
      UnpackedFloat.roundWithAccuracy Format.binary64 (s₁ * s₂) (m₁ * m₂)
        ((k₁ : Int) - 1074 + ((k₂ : Int) - 1074)) .exact := rfl
  rw [hproduct, hexponent, ← hround, toNat_pack_round _ hne]

end Product

section Naturals

variable {d : Nat}

theorem units_of_toBits_natural {x : Float} (hlt : d < 2 ^ 53)
    (h : x.toBits.toNat = min (roundedBits (d * 2 ^ 1074)) (2047 * 2 ^ 52)) :
    x.isFinite = true ∧ units x = ((d * unitsPerOne : Nat) : Int) := by
  have hreach := roundedBits_lt_of_le (k := 1074) hlt (by decide) le_rfl
  rw [min_eq_left hreach.le] at h
  obtain ⟨hfinite, hunits⟩ := units_of_toBits_eq h hreach
  refine ⟨hfinite, ?_⟩
  rw [hunits, rounded_eq_self hlt 1074, unitsPerOne_eq]

theorem units_toFloat (hd : 0 < d) (hlt : d < 2 ^ 53) :
    d.toUInt64.toFloat.isFinite = true ∧ units d.toUInt64.toFloat = ((d * unitsPerOne : Nat) : Int) := by
  have hword : d.toUInt64.toNat = d := by
    rw [Nat.toUInt64, UInt64.toNat_ofNat']
    omega
  have hpositive : (signOf d).toBitVec.toNat = 0 := by
    unfold signOf
    rw [if_neg (by omega)]
    rfl
  have hnormalize := toNat_pack_normalize (a := (d : Int)) (by omega) 1074 .positive
  rw [Int.natAbs_natCast, hpositive, Nat.zero_mul, Nat.zero_add] at hnormalize
  refine units_of_toBits_natural hlt ?_
  change (UnpackedFloat.pack Format.binary64
    (UnpackedFloat.normalize Format.binary64 (d.toUInt64.toNat : Int) 0 .positive)).toNat = _
  rw [hword]
  exact hnormalize

theorem units_toFloat_mul {one : Float} (hone : HasFields one .positive 1023 0) (hd : 0 < d) (hlt : d < 2 ^ 53) :
    (d.toUInt64.toFloat * one).isFinite = true ∧
      units (d.toUInt64.toFloat * one) = ((d * unitsPerOne : Nat) : Int) := by
  obtain ⟨hfinite, hunits⟩ := units_toFloat hd hlt
  obtain ⟨m, k, hm, hvalue, hcanonical, hunpack⟩ :=
    exists_model_of_units hfinite (Nat.mul_pos hd unitsPerOne_pos) hunits
  obtain ⟨hpos, hfields⟩ := ofFields_eq_finite .positive (e := 1023) (m := 0) (by decide) (by decide)
  have hpositive : (Sign.positive * Sign.positive).toBitVec.toNat = 0 := rfl
  have hlarge : 52 ≤ k := by
    by_contra hsmall
    have hbelow : m * 2 ^ k < 2 ^ 53 * 2 ^ 52 :=
      Nat.mul_lt_mul_of_lt_of_le hcanonical.lt (Nat.pow_le_pow_right two_pos (by omega)) (Nat.two_pow_pos _)
    have hunit : 2 ^ 53 * 2 ^ 52 ≤ unitsPerOne := by
      rw [unitsPerOne_eq_mul (a := 2 ^ 53 * 2 ^ 52) (c := 105) (k := 969) (by decide) (by decide)]
      exact Nat.le_mul_of_pos_right _ (pow_pos two_pos 969)
    have hle : unitsPerOne ≤ d * unitsPerOne := Nat.le_mul_of_pos_left _ hd
    omega
  have hproduct : m * (2 ^ 52 + 0) * 2 ^ (k - 52) = d * 2 ^ 1074 := by
    rw [← unitsPerOne_eq, hvalue, mul_two_pow_eq m hlarge, Nat.add_zero, mul_right_comm]
  refine units_of_toBits_natural hlt ?_
  change (UnpackedFloat.pack Format.binary64
    (UnpackedFloat.mul Format.binary64 d.toUInt64.toFloat.toModel.unpack one.toModel.unpack)).toNat = _
  rw [hunpack, hone.unpack, hfields, toNat_pack_mul (k := k - 52) hm hpos (Nat.le_mul_of_pos_left _ hm) (by omega),
    hpositive, if_neg (by decide), hproduct, Nat.zero_mul, Nat.zero_add]

theorem units_ofNat (hlt : d < 2 ^ 53) : (Scalar.ofNat d : Float).isFinite = true ∧
    units (Scalar.ofNat d : Float) = ((d * unitsPerOne : Nat) : Int) := by
  rcases Nat.eq_zero_or_pos d with rfl | hd
  · rw [Nat.zero_mul]
    exact hasFields_zero.units_zero
  · have hone : HasFields Float.exactlyRepresentablePowersOfTen[0] .positive 1023 0 :=
      ⟨by decide, by decide, by decide⟩
    have hliteral : (Scalar.ofNat d : Float) = d.toUInt64.toFloat * Float.exactlyRepresentablePowersOfTen[0] :=
      (dif_pos ⟨hlt, by decide⟩).trans (if_neg Bool.false_ne_true)
    rw [hliteral]
    exact units_toFloat_mul hone hd hlt

end Naturals

end EditorTheme.Double
