import EditorTheme.Proofs.Double.Addition

/-!
Quotients of doubles. The quotient of two positive doubles is the double nearest to the exact quotient of their units:
the bits of the quotient beyond those that are kept decide between the two neighbours, and they do so together with what
the division leaves.
-/

set_option autoImplicit false
set_option relaxedAutoImplicit false

namespace EditorTheme.Double

open Float.Model Float.Model.UnpackedFloat
open Decimal (nearestDiv)

section Quarters

/-- What a division leaves, in quarters of a step; the odd ones stand for all that lies off the even ones. -/
def quarter (rest den : Nat) : Nat :=
  if rest = 0 then 0
  else match compare (2 * rest) den with
    | .lt => 1
    | .eq => 2
    | .gt => 3

def quarters (num den : Nat) : Nat := 4 * (num / den) + quarter (num % den) den

theorem quarter_cases (rest den : Nat) : quarter rest den = 0 ∧ rest = 0 ∨
    quarter rest den = 1 ∧ 0 < rest ∧ 2 * rest < den ∨
    quarter rest den = 2 ∧ 0 < rest ∧ 2 * rest = den ∨
    quarter rest den = 3 ∧ den < 2 * rest := by
  unfold quarter
  split_ifs with hzero
  · exact .inl ⟨rfl, hzero⟩
  · split
    · next hlt => exact .inr (.inl ⟨rfl, Nat.pos_of_ne_zero hzero, compare_lt_iff_lt.mp hlt⟩)
    · next heq => exact .inr (.inr (.inl ⟨rfl, Nat.pos_of_ne_zero hzero, compare_eq_iff_eq.mp heq⟩))
    · next hgt => exact .inr (.inr (.inr ⟨rfl, compare_gt_iff_gt.mp hgt⟩))

/-- A division starts with the state that shifting out the quarters leaves. -/
theorem ofMantissaAndAccuracy_eq (num den : Nat) :
    ExtendedMantissa.ofMantissaAndAccuracy (num / den) (accuracyOfFraction (num % den) den) =
      (⟨quarters num den, false, false⟩ : ExtendedMantissa) >>> 2 := by
  have hshift : ∀ quotient rest, rest < 4 → (⟨4 * quotient + rest, false, false⟩ : ExtendedMantissa) >>> 2 =
      ⟨quotient, rest / 2 % 2 != 0, rest % 2 != 0⟩ := by
    intro quotient rest hrest
    show (⟨(4 * quotient + rest) / 2 / 2, (4 * quotient + rest) / 2 % 2 != 0,
      (4 * quotient + rest) % 2 != 0 || (false || false)⟩ : ExtendedMantissa) = _
    rw [Bool.or_false, Bool.or_false, ExtendedMantissa.mk.injEq]
    refine ⟨by omega, ?_, ?_⟩ <;> congr 1 <;> omega
  unfold quarters quarter accuracyOfFraction
  split_ifs with hzero
  · rw [hshift _ _ (by decide)]
    rfl
  · cases compare (2 * (num % den)) den <;> rw [hshift _ _ (by decide)] <;> rfl

theorem shiftRight_add (em : ExtendedMantissa) (a b : Nat) : (em >>> a) >>> b = em >>> (a + b) := by
  induction b with
  | zero => rfl
  | succ b ih => exact congrArg ExtendedMantissa.shiftRightOne ih

theorem compare_rest {rest den : Nat} (hlt : rest < den) (steps step : Nat) :
    (2 * (4 * steps + quarter rest den) < 4 * step ↔ 2 * (rest + den * steps) < den * step) ∧
      (4 * step < 2 * (4 * steps + quarter rest den) ↔ den * step < 2 * (rest + den * steps)) := by
  have hquarter := quarter_cases rest den
  have hdouble : den * (2 * steps) = 2 * (den * steps) := Nat.mul_left_comm den 2 steps
  have hfar : step + 1 ≤ 2 * steps ∨ step = 2 * steps ∨ step = 2 * steps + 1 ∨ 2 * steps + 2 ≤ step := by omega
  rcases hfar with habove | rfl | rfl | hbelow
  · have hscaled := Nat.mul_le_mul_left den habove
    rw [Nat.mul_add] at hscaled
    omega
  · omega
  · have hodd : den * (2 * steps + 1) = 2 * (den * steps) + den := by rw [Nat.mul_succ, hdouble]
    omega
  · have hscaled := Nat.mul_le_mul_left den hbelow
    rw [Nat.mul_add] at hscaled
    omega

/-- Rounding sees no more of a division than the quarters. -/
theorem nearestDiv_quarters (num : Nat) {den : Nat} (hden : 0 < den) (step : Nat) :
    nearestDiv (quarters num den) (4 * step) = nearestDiv num (den * step) := by
  have hlt : num % den < den := Nat.mod_lt num hden
  have hquotient : quarters num den / (4 * step) = num / (den * step) := by
    rw [← Nat.div_div_eq_div_mul, ← Nat.div_div_eq_div_mul]
    congr 1
    have hquarter := quarter_cases (num % den) den
    unfold quarters
    omega
  have hrest : quarters num den % (4 * step) = 4 * (num / den % step) + quarter (num % den) den := by
    rw [Nat.mod_mul]
    have hquarter := quarter_cases (num % den) den
    have hdiv : quarters num den / 4 = num / den := by
      unfold quarters
      omega
    rw [hdiv]
    unfold quarters
    omega
  have hrest' : num % (den * step) = num % den + den * (num / den % step) := Nat.mod_mul
  have hbelow : 2 * (quarters num den % (4 * step)) < 4 * step ↔ 2 * (num % (den * step)) < den * step := by
    rw [hrest, hrest', (compare_rest hlt _ step).1]
  have habove : 4 * step < 2 * (quarters num den % (4 * step)) ↔ den * step < 2 * (num % (den * step)) := by
    rw [hrest, hrest', (compare_rest hlt _ step).2]
  unfold nearestDiv
  simp only [hquotient, hbelow, habove]

end Quarters

section Quotient

/-- The scale at which a quotient has a full significand, or the least one. -/
def quotientScale (num den : Nat) : Nat := (num / den).log2 - 52

/-- The bits of the double nearest to a quotient, counted on beyond the largest one. -/
def quotientBits (num den : Nat) : Nat :=
  quotientScale num den * 2 ^ 52 + nearestDiv num (den * 2 ^ quotientScale num den)

variable {num den : Nat}

/-- The scale is the only one at which the quotient has at most 53 bits, and 53 of them unless it is the least. -/
theorem quotientScale_eq {scale : Nat} (hden : 0 < den) (hlt : num < 2 ^ (53 + scale) * den)
    (hfull : scale ≠ 0 → 2 ^ (52 + scale) * den ≤ num) : quotientScale num den = scale := by
  have hbelow : num / den < 2 ^ (53 + scale) := (Nat.div_lt_iff_lt_mul hden).mpr hlt
  have hlow : scale ≠ 0 → 2 ^ (52 + scale) ≤ num / den := fun hne => (Nat.le_div_iff_mul_le hden).mpr (hfull hne)
  have hpos : 0 < 2 ^ (52 + scale) := Nat.two_pow_pos _
  unfold quotientScale
  by_cases hzero : num / den = 0
  · rw [hzero] at hlow ⊢
    have hleast : scale = 0 := by
      by_contra hne
      have hle := hlow hne
      omega
    rw [hleast, Nat.log2_zero]
  · have hlog : (num / den).log2 < 53 + scale := (Nat.log2_lt hzero).mpr hbelow
    have hlog' : scale ≠ 0 → 52 + scale ≤ (num / den).log2 := fun hne => (Nat.le_log2 hzero).mpr (hlow hne)
    omega

theorem lt_two_pow_quotientScale (num : Nat) (hden : 0 < den) : num < 2 ^ 53 * (den * 2 ^ quotientScale num den) := by
  have hlt := lt_two_pow_shift (num / den)
  rw [Nat.div_lt_iff_lt_mul hden, mul_assoc, mul_comm _ den] at hlt
  exact hlt

theorem two_pow_quotientScale_le (num : Nat) (hden : 0 < den) (h : quotientScale num den ≠ 0) :
    2 ^ 52 * (den * 2 ^ quotientScale num den) ≤ num := by
  have hle := two_pow_shift_le h
  rw [Nat.le_div_iff_mul_le hden, mul_assoc, mul_comm _ den] at hle
  exact hle

theorem nearestDiv_quotient_le (num : Nat) (hden : 0 < den) : nearestDiv num (den * 2 ^ quotientScale num den) ≤ 2 ^ 53 :=
  Decimal.nearestDiv_le (Nat.mul_pos hden (Nat.two_pow_pos _)) (lt_two_pow_quotientScale num hden).le

theorem le_nearestDiv_quotient (num : Nat) (hden : 0 < den) (h : quotientScale num den ≠ 0) :
    2 ^ 52 ≤ nearestDiv num (den * 2 ^ quotientScale num den) :=
  le_trans ((Nat.le_div_iff_mul_le (Nat.mul_pos hden (Nat.two_pow_pos _))).mpr (two_pow_quotientScale_le num hden h))
    (Decimal.div_le_nearestDiv _ _)

theorem quotientBits_le {e m : Nat} (hden : 0 < den) (he : 0 < e) (hm : m < 2 ^ 52)
    (h : num ≤ (2 ^ 52 + m) * 2 ^ (e - 1) * den) : quotientBits num den ≤ e * 2 ^ 52 + m := by
  have hround := nearestDiv_quotient_le num hden
  unfold quotientBits
  rcases Nat.lt_trichotomy (quotientScale num den) (e - 1) with hbelow | hsame | habove
  · omega
  · have hscaled : (2 ^ 52 + m) * 2 ^ (e - 1) * den = (2 ^ 52 + m) * (den * 2 ^ (e - 1)) := by ring
    rw [hscaled] at h
    have hle := Decimal.nearestDiv_le (Nat.mul_pos hden (Nat.two_pow_pos (e - 1))) h
    rw [hsame]
    omega
  · -- A quotient of a larger scale would be larger than the double.
    have hfull := two_pow_quotientScale_le num hden (by omega)
    have hstep : 2 ^ (e - 1 + 1) ≤ 2 ^ quotientScale num den := Nat.pow_le_pow_right two_pos habove
    have hlarge : 2 ^ 52 * (den * 2 ^ (e - 1 + 1)) ≤ num :=
      le_trans (Nat.mul_le_mul_left _ (Nat.mul_le_mul_left den hstep)) hfull
    have hdouble : 2 ^ 52 * (den * 2 ^ (e - 1 + 1)) = 2 ^ 53 * (den * 2 ^ (e - 1)) := by ring
    have hscaled : (2 ^ 52 + m) * 2 ^ (e - 1) * den = (2 ^ 52 + m) * (den * 2 ^ (e - 1)) := by ring
    have hpos : 0 < den * 2 ^ (e - 1) := Nat.mul_pos hden (Nat.two_pow_pos _)
    rw [hscaled] at h
    have hless : (2 ^ 52 + m) * (den * 2 ^ (e - 1)) < 2 ^ 53 * (den * 2 ^ (e - 1)) :=
      Nat.mul_lt_mul_of_pos_right (by omega) hpos
    omega

end Quotient

section Division

variable {m₁ m₂ k₁ k₂ : Nat}

/-- How far the first operand is shifted before the division, and what is left of its scale then. -/
theorem divCore_eq (h₁ : 0 < m₁) (m₂ k₁ k₂ : Nat) : ∃ (shift rest : Nat) (e : Int),
    divCore Format.binary64 m₁ ((k₁ : Int) - 1074) m₂ ((k₂ : Int) - 1074) =
      (m₁ * 2 ^ shift / m₂, e, accuracyOfFraction (m₁ * 2 ^ shift % m₂) m₂) ∧
    k₁ + 1074 = shift + rest ∧ (rest : Int) = k₂ + e + 1074 ∧ (-1074 < e → 2 ^ 52 * m₂ ≤ m₁ * 2 ^ shift) := by
  have hbits : (Format.binary64.mantissaBits : Int) = 53 := rfl
  have hmin : Format.binary64.minExponent = -1074 := rfl
  obtain ⟨e, he⟩ : ∃ e : Int, e = min ((k₁ : Int) - 1074 - ((k₂ : Int) - 1074))
      (Format.binary64.targetExponent (totalExponent m₁ ((k₁ : Int) - 1074) - totalExponent m₂ ((k₂ : Int) - 1074))) :=
    ⟨_, rfl⟩
  obtain ⟨shift, hshift⟩ : ∃ shift : Nat, shift = ((k₁ : Int) - 1074 - ((k₂ : Int) - 1074) - e).toNat := ⟨_, rfl⟩
  have htarget := he
  unfold Format.targetExponent totalExponent at htarget
  rw [hbits, hmin] at htarget
  refine ⟨shift, (k₂ + e + 1074).toNat, e, ?_, by omega, by omega, ?_⟩
  · unfold divCore
    dsimp only
    rw [← he, ← hshift, Nat.shiftLeft_eq]
  · intro hlow
    have hroom : m₂.log2 + 53 ≤ m₁.log2 + shift := by omega
    calc 2 ^ 52 * m₂ ≤ 2 ^ 52 * 2 ^ (m₂.log2 + 1) := Nat.mul_le_mul_left _ Nat.lt_log2_self.le
      _ = 2 ^ (m₂.log2 + 53) := by ring
      _ ≤ 2 ^ (m₁.log2 + shift) := Nat.pow_le_pow_right two_pos hroom
      _ = 2 ^ m₁.log2 * 2 ^ shift := pow_add 2 _ _
      _ ≤ m₁ * 2 ^ shift := Nat.mul_le_mul_right _ (Nat.log2_self_le h₁.ne')

theorem targetExponent_eq (q : Nat) (e : Int) :
    Format.binary64.targetExponent (totalExponent q e) = max (q.log2 + e - 52) (-1074) := by
  have hbits : (Format.binary64.mantissaBits : Int) = 53 := rfl
  have hmin : Format.binary64.minExponent = -1074 := rfl
  unfold Format.targetExponent totalExponent
  rw [hbits, hmin]
  omega

/-- A division is rounded once, by the bits beyond those that are kept and by what is left. -/
theorem roundWithAccuracy_quotient (s : Sign) (num : Nat) {den : Nat} (hden : 0 < den) (e : Int) : ∃ count : Nat,
    (count : Int) = max 0 (max ((num / den).log2 + e - 52) (-1074) - e) ∧
    UnpackedFloat.roundWithAccuracy Format.binary64 s (num / den) e (accuracyOfFraction (num % den) den) =
      settled s (nearestDiv num (den * 2 ^ count)) (e + count) := by
  rw [← targetExponent_eq]
  refine ⟨(Format.binary64.targetExponent (totalExponent (num / den) e) - e).toNat, by omega, ?_⟩
  generalize hcount : (Format.binary64.targetExponent (totalExponent (num / den) e) - e).toNat = count
  have hstart : shiftToTargetExponent Format.binary64 (num / den) e (accuracyOfFraction (num % den) den) =
      ((⟨quarters num den, false, false⟩ : ExtendedMantissa) >>> (2 + count), e + count) := by
    unfold shiftToTargetExponent shiftToExponent
    dsimp only
    rw [hcount, ofMantissaAndAccuracy_eq, shiftRight_add]
  have hround : ((⟨quarters num den, false, false⟩ : ExtendedMantissa) >>> (2 + count)).roundedMantissa =
      nearestDiv num (den * 2 ^ count) := by
    rw [(Shifted.shift _ _).roundedMantissa, pow_add]
    exact nearestDiv_quarters num hden _
  rw [← hround]
  unfold UnpackedFloat.roundWithAccuracy
  rw [hstart]
  rfl

theorem quotient_bounds {num den count scale : Nat} {e : Int} (hden : 0 < den)
    (hcount : (count : Int) = max 0 (max ((num / den).log2 + e - 52) (-1074) - e))
    (hscale : e + count = (scale : Int) - 1074) (hfull : -1074 < e → 2 ^ 52 * den ≤ num) :
    num < 2 ^ (53 + count) * den ∧ (scale ≠ 0 → 2 ^ (52 + count) * den ≤ num) := by
  constructor
  · have hlog : (num / den).log2 + 1 ≤ 53 + count := by omega
    rw [← Nat.div_lt_iff_lt_mul hden]
    exact lt_of_lt_of_le Nat.lt_log2_self (Nat.pow_le_pow_right two_pos hlog)
  · intro hne
    rcases Nat.eq_zero_or_pos count with hkept | hshifted
    · rw [hkept]
      exact hfull (by omega)
    · have hlog : (num / den).log2 = 52 + count := by omega
      have hquotient : num / den ≠ 0 := by
        intro hzero
        rw [hzero, Nat.log2_zero] at hlog
        omega
      rw [← Nat.le_div_iff_mul_le hden, ← hlog]
      exact Nat.log2_self_le hquotient

theorem toNat_pack_settled_quotient (s : Sign) {num den : Nat} (hden : 0 < den) :
    (UnpackedFloat.pack Format.binary64 (settled s (nearestDiv num (den * 2 ^ quotientScale num den))
      ((quotientScale num den : Int) - 1074))).toNat =
      s.toBitVec.toNat * 2 ^ 63 + min (quotientBits num den) (2047 * 2 ^ 52) := by
  have hhigh := nearestDiv_quotient_le num hden
  have hfull := le_nearestDiv_quotient num hden
  unfold quotientBits
  generalize nearestDiv num (den * 2 ^ quotientScale num den) = q at *
  generalize quotientScale num den = scale at *
  by_cases hzero : q = 0
  · have hleast : scale = 0 := by
      by_contra hne
      rw [hzero] at hfull
      exact absurd (hfull hne) (by decide)
    have hnone : (shiftToTargetExponent Format.binary64 0 ((scale : Int) - 1074) .exact).1.mantissa = 0 :=
      (Shifted.shift 0 _).mantissa.trans (Nat.zero_div _)
    have hsettled : settled s 0 ((scale : Int) - 1074) = .zero s := dif_pos hnone
    rw [hzero, hsettled, hleast]
    exact (toNat_packComponents s 0#11 0#52).trans (by simp)
  · exact toNat_pack_settled s hzero hhigh hfull

theorem toNat_pack_div {s₁ s₂ : Sign} (h₁ : 0 < m₁) (h₂ : 0 < m₂) :
    (UnpackedFloat.pack Format.binary64 (UnpackedFloat.div Format.binary64 (.finite s₁ m₁ ((k₁ : Int) - 1074) h₁)
      (.finite s₂ m₂ ((k₂ : Int) - 1074) h₂))).toNat =
      (s₁ / s₂).toBitVec.toNat * 2 ^ 63 +
        min (quotientBits (m₁ * 2 ^ k₁ * 2 ^ 1074) (m₂ * 2 ^ k₂)) (2047 * 2 ^ 52) := by
  obtain ⟨shift, rest, e, hcore, hsum, hrest, hfull⟩ := divCore_eq h₁ m₂ k₁ k₂
  obtain ⟨count, hcount, hround⟩ := roundWithAccuracy_quotient (s₁ / s₂) (m₁ * 2 ^ shift) h₂ e
  obtain ⟨scale, hscale⟩ : ∃ scale : Nat, e + count = (scale : Int) - 1074 := ⟨(e + count + 1074).toNat, by omega⟩
  obtain ⟨hlt, hlow⟩ := quotient_bounds h₂ hcount hscale hfull
  have hpos : 0 < m₂ * 2 ^ k₂ := Nat.mul_pos h₂ (Nat.two_pow_pos _)
  -- The units are the operands of the division times one power of two.
  have hnum : m₁ * 2 ^ k₁ * 2 ^ 1074 = m₁ * 2 ^ shift * 2 ^ rest := by
    rw [mul_assoc, mul_assoc, ← pow_add, ← pow_add, hsum]
  have hden : ∀ a, 2 ^ (a + scale) * (m₂ * 2 ^ k₂) = 2 ^ (a + count) * m₂ * 2 ^ rest := by
    intro a
    have hsame : a + scale + k₂ = a + count + rest := by omega
    rw [← mul_assoc, mul_right_comm, ← pow_add, hsame, pow_add, mul_right_comm]
  have hquotient : quotientScale (m₁ * 2 ^ k₁ * 2 ^ 1074) (m₂ * 2 ^ k₂) = scale := by
    refine quotientScale_eq hpos ?_ ?_
    · rw [hnum, hden]
      exact Nat.mul_lt_mul_of_pos_right hlt (Nat.two_pow_pos _)
    · intro hne
      rw [hnum, hden]
      exact Nat.mul_le_mul_right _ (hlow hne)
  have hnearest : nearestDiv (m₁ * 2 ^ k₁ * 2 ^ 1074) (m₂ * 2 ^ k₂ * 2 ^ scale) =
      nearestDiv (m₁ * 2 ^ shift) (m₂ * 2 ^ count) := by
    have hsame : k₂ + scale = count + rest := by omega
    rw [hnum, mul_assoc m₂, ← pow_add, hsame, pow_add, ← mul_assoc m₂, nearestDiv_mul_right _ (Nat.two_pow_pos _)]
  change (UnpackedFloat.pack Format.binary64
    (match divCore Format.binary64 m₁ ((k₁ : Int) - 1074) m₂ ((k₂ : Int) - 1074) with
      | (m, e, acc) => UnpackedFloat.roundWithAccuracy Format.binary64 (s₁ / s₂) m e acc)).toNat = _
  rw [← toNat_pack_settled_quotient _ hpos, hquotient, hnearest, hcore]
  dsimp only
  rw [hround, hscale]

end Division

section Finite

variable {x y : Float} {num den : Nat}

/-- The quotient of positive doubles is the double nearest to the quotient of their units, or infinity. -/
theorem toNat_toBits_div (hx : x.isFinite = true) (hy : y.isFinite = true) (hnum : 0 < num) (hden : 0 < den)
    (hxunits : units x = num) (hyunits : units y = den) :
    (x / y).toBits.toNat = min (quotientBits (num * unitsPerOne) den) (2047 * 2 ^ 52) := by
  obtain ⟨m₁, k₁, h₁, rfl, -, hxunpack⟩ := exists_model_of_units hx hnum hxunits
  obtain ⟨m₂, k₂, h₂, rfl, -, hyunpack⟩ := exists_model_of_units hy hden hyunits
  have hpositive : (Sign.positive / Sign.positive).toBitVec.toNat = 0 := rfl
  change (UnpackedFloat.pack Format.binary64
    (UnpackedFloat.div Format.binary64 x.toModel.unpack y.toModel.unpack)).toNat = _
  rw [hxunpack, hyunpack, toNat_pack_div, hpositive, Nat.zero_mul, Nat.zero_add, unitsPerOne_eq]

theorem units_div_le (hx : x.isFinite = true) (hy : y.isFinite = true) (hnum : 0 < num) (hden : 0 < den)
    (hxunits : units x = num) (hyunits : units y = den) {e m : Nat} (he : 0 < e) (htop : e < 2047) (hm : m < 2 ^ 52)
    (h : num * unitsPerOne ≤ (2 ^ 52 + m) * 2 ^ (e - 1) * den) :
    (x / y).isFinite = true ∧ 0 ≤ units (x / y) ∧ units (x / y) ≤ (((2 ^ 52 + m) * 2 ^ (e - 1) : Nat) : Int) := by
  have hbits : (x / y).toBits.toNat ≤ e * 2 ^ 52 + m := by
    rw [toNat_toBits_div hx hy hnum hden hxunits hyunits]
    exact le_trans (min_le_left _ _) (quotientBits_le hden he hm h)
  exact units_le_of_toBits_le he htop hm hbits

end Finite

end EditorTheme.Double
