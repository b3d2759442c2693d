import EditorTheme.Proofs.Double.Unpacked

/-!
Rounding a number of units to a double. Numbers below 2^53 units are kept; a larger one is rounded to 53 bits, and a
number that rounds to 2^1024 or more becomes infinite.
-/

set_option autoImplicit false
set_option relaxedAutoImplicit false

namespace EditorTheme.Decimal

theorem div_le_nearestDiv (num den : Nat) : num / den ≤ nearestDiv num den := by
  unfold nearestDiv
  simp only
  split_ifs <;> omega

/-- A quotient reaches a positive even natural by rounding from half a step below it. -/
theorem le_nearestDiv_iff {num den bound : Nat} (hden : 0 < den) (heven : bound % 2 = 0) :
    bound ≤ nearestDiv num den ↔ 2 * (bound * den) ≤ 2 * num + den := by
  have hsplit : num / den * den + num % den = num := Nat.div_add_mod' num den
  have hrest : num % den < den := Nat.mod_lt num hden
  unfold nearestDiv
  simp only
  generalize num / den = quotient at *
  generalize num % den = rest at *
  rcases Nat.lt_trichotomy bound (quotient + 1) with hbelow | rfl | habove
  · have hscaled : bound * den ≤ quotient * den := Nat.mul_le_mul_right den (by omega)
    have hleft : bound ≤ quotient := by omega
    refine iff_of_true ?_ (by omega)
    split_ifs <;> omega
  · rw [Nat.add_mul]
    split_ifs <;> omega
  · have hscaled : (quotient + 2) * den ≤ bound * den := Nat.mul_le_mul_right den habove
    rw [Nat.add_mul] at hscaled
    refine iff_of_false ?_ (by omega)
    split_ifs <;> omega

end EditorTheme.Decimal

namespace EditorTheme.Double

open Decimal (nearestDiv)
open Float.Model Float.Model.UnpackedFloat

section Rounding

variable (n : Nat)

/-- The bits of the nearest double, counted on beyond the largest one. -/
def roundedBits : Nat := (n.log2 - 52) * 2 ^ 52 + nearestDiv n (2 ^ (n.log2 - 52))

theorem lt_two_pow_shift : n < 2 ^ 53 * 2 ^ (n.log2 - 52) := by
  have hlog : n < 2 ^ (n.log2 + 1) := Nat.lt_log2_self
  have hpow : 2 ^ (n.log2 + 1) ≤ 2 ^ (53 + (n.log2 - 52)) := Nat.pow_le_pow_right (by decide) (by omega)
  rw [← pow_add]
  exact lt_of_lt_of_le hlog hpow

theorem two_pow_shift_le {n : Nat} (h : n.log2 - 52 ≠ 0) : 2 ^ 52 * 2 ^ (n.log2 - 52) ≤ n := by
  have hne : n ≠ 0 := by
    rintro rfl
    exact h rfl
  have hsum : 52 + (n.log2 - 52) = n.log2 := by omega
  rw [← pow_add, hsum]
  exact Nat.log2_self_le hne

theorem nearestDiv_le_significand : nearestDiv n (2 ^ (n.log2 - 52)) ≤ 2 ^ 53 :=
  Decimal.nearestDiv_le (Nat.two_pow_pos _) (lt_two_pow_shift n).le

theorem significand_le_nearestDiv {n : Nat} (h : n.log2 - 52 ≠ 0) : 2 ^ 52 ≤ nearestDiv n (2 ^ (n.log2 - 52)) :=
  le_trans ((Nat.le_div_iff_mul_le (Nat.two_pow_pos _)).mpr (two_pow_shift_le h)) (Decimal.div_le_nearestDiv _ _)

theorem nat_pow_two (k : Nat) : Nat.pow 2 k = 2 ^ k := rfl

theorem unitsPerOne_eq : unitsPerOne = 2 ^ 1074 := by
  unfold unitsPerOne
  -- The exponent is kept symbolic so that nothing is computed.
  generalize 1074 = k
  rfl

theorem unitsPerOne_eq_mul {a c k : Nat} (ha : a = 2 ^ c) (hk : 1074 = c + k) : unitsPerOne = a * 2 ^ k := by
  rw [unitsPerOne_eq, ha, hk, pow_add]

theorem unitsPerOne_pos : 0 < unitsPerOne := by
  rw [unitsPerOne_eq]
  exact pow_pos two_pos 1074

theorem ofMagnitude_eq : ofMagnitude n = Float.ofBits (UInt64.ofNat (min (roundedBits n) (2047 * 2 ^ 52))) := by
  unfold ofMagnitude roundedBits
  simp only [nat_pow_two]

theorem hasFields_ofMagnitude : HasFields (ofMagnitude n) .positive (min (roundedBits n) (2047 * 2 ^ 52) / 2 ^ 52)
    (min (roundedBits n) (2047 * 2 ^ 52) % 2 ^ 52) := by
  rw [ofMagnitude_eq]
  have hbound : min (roundedBits n) (2047 * 2 ^ 52) ≤ 2047 * 2 ^ 52 := min_le_right _ _
  generalize min (roundedBits n) (2047 * 2 ^ 52) = bits at hbound
  have hpositive : Sign.positive.toBitVec.toNat = 0 := rfl
  have hword : (UInt64.ofNat bits).toNat = bits := by
    rw [UInt64.toNat_ofNat']
    omega
  exact hasFields_ofBits (Nat.mod_lt _ (by decide)) (by omega) (by omega)

theorem isFinite_ofMagnitude : (ofMagnitude n).isFinite = true ↔ roundedBits n < 2047 * 2 ^ 52 := by
  rw [(hasFields_ofMagnitude n).isFinite]
  omega

theorem HasFields.magnitude {x : Float} {s : Sign} {e m : Nat} (h : HasFields x s e m) :
    magnitude x = (if e = 0 then m else 2 ^ 52 + m) * 2 ^ (e - 1) := by
  have hmagnitude : Double.magnitude x = (if Double.exponentField x = 0 then Double.fractionField x
    else 2 ^ 52 + Double.fractionField x) * 2 ^ (Double.exponentField x - 1) := rfl
  rw [hmagnitude, h.exponentField, h.fractionField]

theorem magnitude_ofMagnitude {n : Nat} (h : roundedBits n < 2047 * 2 ^ 52) :
    magnitude (ofMagnitude n) = nearestDiv n (2 ^ (n.log2 - 52)) * 2 ^ (n.log2 - 52) := by
  have hfields := hasFields_ofMagnitude n
  have hlow := @significand_le_nearestDiv n
  have hhigh := nearestDiv_le_significand n
  rw [min_eq_left h.le] at hfields
  rw [hfields.magnitude]
  unfold roundedBits
  generalize nearestDiv n (2 ^ (n.log2 - 52)) = q at *
  generalize n.log2 - 52 = shift at *
  rcases lt_or_ge q (2 ^ 52) with hsmall | hlarge
  · -- Below 2^52 nothing is shifted.
    obtain rfl : shift = 0 := by omega
    have he : (0 * 2 ^ 52 + q) / 2 ^ 52 = 0 := by omega
    have hm : (0 * 2 ^ 52 + q) % 2 ^ 52 = q := by omega
    rw [he, hm, if_pos rfl]
  · rcases lt_or_eq_of_le hhigh with hlt | rfl
    · rw [if_neg (by omega)]
      have he : (shift * 2 ^ 52 + q) / 2 ^ 52 - 1 = shift := by omega
      have hm : 2 ^ 52 + (shift * 2 ^ 52 + q) % 2 ^ 52 = q := by omega
      rw [he, hm]
    · rw [if_neg (by omega)]
      have he : (shift * 2 ^ 52 + 2 ^ 53) / 2 ^ 52 - 1 = shift + 1 := by omega
      have hm : 2 ^ 52 + (shift * 2 ^ 52 + 2 ^ 53) % 2 ^ 52 = 2 ^ 52 := by omega
      rw [he, hm, pow_succ 2 shift, pow_succ 2 52, mul_assoc, mul_comm 2 (2 ^ shift)]

theorem two_pow_eq_mul {a b c : Nat} (h : c = a + b) : 2 ^ c = 2 ^ a * 2 ^ b := by
  rw [h, pow_add]

theorem mul_two_pow_eq (a : Nat) {k shift : Nat} (h : shift ≤ k) : a * 2 ^ k = a * 2 ^ (k - shift) * 2 ^ shift := by
  rw [mul_assoc, ← two_pow_eq_mul (Nat.sub_add_cancel h).symm]

theorem shift_le {n a k : Nat} (ha : a < 2 ^ 53) (h : n ≤ a * 2 ^ k) : n.log2 - 52 ≤ k := by
  by_contra hbeyond
  have hlow := two_pow_shift_le (n := n) (by omega)
  have hstep : 2 ^ (k + 1) ≤ 2 ^ (n.log2 - 52) := pow_le_pow_right₀ one_le_two (Nat.lt_of_not_le hbeyond)
  have hdouble : 2 ^ (k + 1) = 2 ^ k * 2 ^ 1 := two_pow_eq_mul rfl
  have hsmall : a * 2 ^ k < 2 ^ 53 * 2 ^ k := Nat.mul_lt_mul_of_pos_right ha (Nat.two_pow_pos k)
  omega

theorem rounded_le {n a k : Nat} (ha : a < 2 ^ 53) (h : n ≤ a * 2 ^ k) :
    nearestDiv n (2 ^ (n.log2 - 52)) * 2 ^ (n.log2 - 52) ≤ a * 2 ^ k := by
  have hscaled := mul_two_pow_eq a (shift_le ha h)
  rw [hscaled] at h ⊢
  exact Nat.mul_le_mul_right _ (Decimal.nearestDiv_le (Nat.two_pow_pos _) h)

theorem rounded_eq_self {a : Nat} (ha : a < 2 ^ 53) (k : Nat) :
    nearestDiv (a * 2 ^ k) (2 ^ ((a * 2 ^ k).log2 - 52)) * 2 ^ ((a * 2 ^ k).log2 - 52) = a * 2 ^ k := by
  have hshift := shift_le (k := k) ha le_rfl
  generalize (a * 2 ^ k).log2 - 52 = shift at hshift ⊢
  rw [mul_two_pow_eq a hshift, Decimal.nearestDiv_mul_self _ (Nat.two_pow_pos shift)]

end Rounding

section Range

theorem roundedBits_lt_iff (n : Nat) : roundedBits n < 2047 * 2 ^ 52 ↔ n + 2 ^ 2044 < 2 ^ 2098 := by
  have hend : (2 : Nat) ^ 2098 = 2 ^ 54 * 2 ^ 2044 := two_pow_eq_mul rfl
  have hpos : 0 < (2 : Nat) ^ 2044 := pow_pos two_pos 2044
  have hhigh := nearestDiv_le_significand n
  have hbelow := lt_two_pow_shift n
  rw [hend]
  unfold roundedBits
  rcases Nat.lt_trichotomy (n.log2 - 52) 2045 with hsmall | hshift | hlarge
  · have hstep : 2 ^ (n.log2 - 52) ≤ 2 ^ 2044 := pow_le_pow_right₀ one_le_two (Nat.le_of_lt_succ hsmall)
    omega
  · have hstep : (2 : Nat) ^ 2045 = 2 ^ 1 * 2 ^ 2044 := two_pow_eq_mul rfl
    have hround : 2 ^ 53 ≤ nearestDiv n (2 ^ 2045) ↔ 2 * (2 ^ 53 * 2 ^ 2045) ≤ 2 * n + 2 ^ 2045 :=
      Decimal.le_nearestDiv_iff (pow_pos two_pos 2045) (by norm_num)
    rw [hshift] at hhigh ⊢
    omega
  · have hstep : 2 ^ 2046 ≤ 2 ^ (n.log2 - 52) := pow_le_pow_right₀ one_le_two hlarge
    have hfour : (2 : Nat) ^ 2046 = 2 ^ 2 * 2 ^ 2044 := two_pow_eq_mul rfl
    have habove := two_pow_shift_le (n := n) (by omega)
    have hlow := significand_le_nearestDiv (n := n) (by omega)
    omega

theorem roundedBits_lt_of_le {n a k : Nat} (ha : a < 2 ^ 53) (hk : k ≤ 2044) (h : n ≤ a * 2 ^ k) :
    roundedBits n < 2047 * 2 ^ 52 := by
  have hstep : 2 ^ k ≤ 2 ^ 2044 := pow_le_pow_right₀ one_le_two hk
  have hsmall : a * 2 ^ k ≤ (2 ^ 53 - 1) * 2 ^ 2044 := Nat.mul_le_mul (by omega) hstep
  have hend : (2 : Nat) ^ 2098 = 2 ^ 54 * 2 ^ 2044 := two_pow_eq_mul rfl
  have hpos : 0 < (2 : Nat) ^ 2044 := pow_pos two_pos 2044
  rw [roundedBits_lt_iff, hend]
  omega

theorem isFinite_ofUnits (n : Int) : (ofUnits n).isFinite = true ↔ n.natAbs + 2 ^ 2044 < 2 ^ 2098 := by
  have hfields := hasFields_ofMagnitude n.natAbs
  rw [← roundedBits_lt_iff, ← isFinite_ofMagnitude]
  unfold ofUnits
  split_ifs with hneg
  · rw [(hfields.neg (by omega)).isFinite, hfields.isFinite]
  · rfl

/-- Whole numbers have a nearest double up to half a step above the largest one. -/
theorem ofInt?_eq_none_iff (n : Int) : ofInt? n = none ↔ 2 ^ 1024 ≤ n.natAbs + 2 ^ 970 := by
  have hsmall : (2 : Nat) ^ 2044 = 2 ^ 970 * 2 ^ 1074 := two_pow_eq_mul rfl
  have hlarge : (2 : Nat) ^ 2098 = 2 ^ 1024 * 2 ^ 1074 := two_pow_eq_mul rfl
  have hpos : 0 < (2 : Nat) ^ 1074 := pow_pos two_pos 1074
  have hunits : (n * (unitsPerOne : Int)).natAbs = n.natAbs * 2 ^ 1074 := by
    rw [Int.natAbs_mul, Int.natAbs_natCast, unitsPerOne_eq]
  have hnone : ofInt? n = none ↔ ¬ (ofUnits (n * unitsPerOne)).isFinite = true := by
    unfold ofInt?
    generalize ofUnits (n * unitsPerOne) = x
    cases hfinite : x.isFinite <;> simp [hfinite]
  rw [hnone, isFinite_ofUnits, hunits, hsmall, hlarge, ← Nat.add_mul, Nat.mul_lt_mul_right hpos, not_lt]

end Range

end EditorTheme.Double
