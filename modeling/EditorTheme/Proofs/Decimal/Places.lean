import EditorTheme.Decimal.Layout
import EditorTheme.Proofs.Double.Comparison
import EditorTheme.Proofs.Double.Division
import EditorTheme.Proofs.Double.Naturals
import EditorTheme.Rational

/-!
Doubles rounded to decimal places. A number of few digits with some places behind the point is one division: its digits
and the power of ten are doubles without rounding, so that the quotient is the double nearest to it, and no more than any
double that is not below it. Rounding so keeps a number between 0 and 1, and a number of degrees below a full turn is
rounded to the turn itself from 359.995 on.
-/

set_option autoImplicit false
set_option relaxedAutoImplicit false

namespace EditorTheme.Double

open Float.Model Float.Model.UnpackedFloat
open Decimal (nearestDiv)

section Decimals

variable {d p : Nat}

theorem units_powerOfTen : ∀ p (h : p < Float.exactlyRepresentablePowersOfTen.size),
    Float.exactlyRepresentablePowersOfTen[p].isFinite = true ∧
      units Float.exactlyRepresentablePowersOfTen[p] = ((10 ^ p * unitsPerOne : Nat) : Int) := by
  decide +kernel

theorem size_powersOfTen : Float.exactlyRepresentablePowersOfTen.size = 23 := by decide

/-- A number of 53 bits with some places is the quotient of two doubles. -/
theorem ofDecimal_eq_div (hd : 0 < d) (hlt : d < 2 ^ 53) (hp : 0 < p)
    (hpower : p < Float.exactlyRepresentablePowersOfTen.size) :
    ofDecimal d (-(p : Int)) = d.toUInt64.toFloat / Float.exactlyRepresentablePowersOfTen[p] := by
  have hlength : (Nat.toDigits 10 d).length ≤ 16 :=
    (Nat.length_toDigits_le_iff (by decide) (by decide)).mpr (lt_trans hlt (by decide))
  have hsize := size_powersOfTen
  have hnegative : decide (-(p : Int) < 0) = true := decide_eq_true (by omega)
  have habs : (-(p : Int)).natAbs = p := by omega
  unfold ofDecimal
  dsimp only
  rw [if_neg (by omega), if_neg (by omega), if_neg (by omega), hnegative, habs]
  exact (dif_pos ⟨hlt, by omega⟩).trans (if_pos rfl)

theorem ofDecimal_zero (e : Int) : ofDecimal 0 e = 0.0 := by
  unfold ofDecimal
  exact if_pos rfl

theorem units_zero : (0.0 : Float).isFinite = true ∧ units 0.0 = 0 :=
  HasFields.units_zero ⟨by decide, by decide, by decide⟩

theorem units_ofDecimal_le (hlt : d < 2 ^ 53) (hp : 0 < p ∧ p < 23) {e m : Nat} (he : 0 < e) (htop : e < 2047)
    (hm : m < 2 ^ 52) (h : d * unitsPerOne ≤ (2 ^ 52 + m) * 2 ^ (e - 1) * 10 ^ p) :
    (ofDecimal d (-(p : Int))).isFinite = true ∧ 0 ≤ units (ofDecimal d (-(p : Int))) ∧
      units (ofDecimal d (-(p : Int))) ≤ (((2 ^ 52 + m) * 2 ^ (e - 1) : Nat) : Int) := by
  rcases Nat.eq_zero_or_pos d with rfl | hd
  · rw [ofDecimal_zero, units_zero.2]
    exact ⟨units_zero.1, le_rfl, Int.natCast_nonneg _⟩
  · have hpower : p < Float.exactlyRepresentablePowersOfTen.size := by
      rw [size_powersOfTen]
      exact hp.2
    obtain ⟨hfinite, hunits⟩ := units_toFloat hd hlt
    obtain ⟨hfinite', hunits'⟩ := units_powerOfTen p hpower
    have hpos : 0 < 10 ^ p * unitsPerOne := Nat.mul_pos (Nat.pow_pos (by decide)) unitsPerOne_pos
    have hscaled : d * unitsPerOne * unitsPerOne ≤ (2 ^ 52 + m) * 2 ^ (e - 1) * (10 ^ p * unitsPerOne) := by
      rw [← mul_assoc _ (10 ^ p)]
      exact Nat.mul_le_mul_right _ h
    rw [ofDecimal_eq_div hd hlt hp.1 hpower]
    exact units_div_le hfinite hfinite' (Nat.mul_pos hd unitsPerOne_pos) hpos hunits hunits' he htop hm hscaled

end Decimals

end EditorTheme.Double

namespace EditorTheme.Decimal

section Places

variable {p : Nat} {x : Float}

theorem scaled_le {b : Nat} (h : Double.magnitude x ≤ b * Double.unitsPerOne) (p : Nat) : scaled p x ≤ b * 10 ^ p := by
  refine nearestDiv_le Double.unitsPerOne_pos ?_
  calc Double.magnitude x * 10 ^ p ≤ b * Double.unitsPerOne * 10 ^ p := Nat.mul_le_mul_right _ h
    _ = b * 10 ^ p * Double.unitsPerOne := mul_right_comm _ _ _

theorem scaled_of_negative (hnonneg : 0 ≤ Double.units x) (hnegative : Double.isNegative x = true) (p : Nat) :
    scaled p x = 0 := by
  have hzero : Double.magnitude x = 0 := by
    unfold Double.units at hnonneg
    rw [if_pos hnegative] at hnonneg
    omega
  unfold scaled
  rw [hzero, Nat.zero_mul]
  exact Nat.le_zero.mp (nearestDiv_le Double.unitsPerOne_pos (Nat.zero_le _))

theorem units_roundPlaces_le (hx : x.isFinite = true) (hnonneg : 0 ≤ Double.units x) (hp : 0 < p ∧ p < 23)
    (hlt : scaled p x < 2 ^ 53) {e m : Nat} (he : 0 < e) (htop : e < 2047) (hm : m < 2 ^ 52)
    (h : scaled p x * Double.unitsPerOne ≤ (2 ^ 52 + m) * 2 ^ (e - 1) * 10 ^ p) :
    (roundPlaces p x).isFinite = true ∧ 0 ≤ Double.units (roundPlaces p x) ∧
      Double.units (roundPlaces p x) ≤ (((2 ^ 52 + m) * 2 ^ (e - 1) : Nat) : Int) := by
  obtain ⟨hfinite, hlow, hhigh⟩ := Double.units_ofDecimal_le hlt hp he htop hm h
  unfold roundPlaces
  dsimp only
  rw [if_pos hx]
  split_ifs with hnegative
  · have hscaled := scaled_of_negative hnonneg hnegative p
    obtain ⟨hneg, hunits, -⟩ := Double.exists_fields_neg Double.units_zero.1
    rw [hscaled, Double.ofDecimal_zero, hunits, Double.units_zero.2]
    exact ⟨hneg, le_rfl, Int.natCast_nonneg _⟩
  · exact ⟨hfinite, hlow, hhigh⟩

end Places

section Ranges

open Double (units magnitude unitsPerOne unitsPerOne_pos)

variable {x : Float}

theorem roundPlaces_unit (h : 0 ≤ x ∧ x ≤ 1) {p : Nat} (hp : 0 < p ∧ p < 16) :
    0 ≤ roundPlaces p x ∧ roundPlaces p x ≤ 1 := by
  obtain ⟨hx, hnonneg, hle⟩ := Double.mem_unit_iff.mp h
  have hmagnitude := Double.magnitude_of_nonneg hnonneg
  have hscaled : scaled p x ≤ 1 * 10 ^ p := scaled_le (by omega) p
  have hlt : 10 ^ p < 2 ^ 53 := lt_of_le_of_lt (Nat.pow_le_pow_right (by decide) (Nat.le_of_lt_succ hp.2)) (by decide)
  have hone : (2 ^ 52 + 0) * 2 ^ (1023 - 1) = unitsPerOne := 
    (Double.unitsPerOne_eq_mul (c := 52) (by decide) (by decide)).symm
  have hbound : scaled p x * unitsPerOne ≤ (2 ^ 52 + 0) * 2 ^ (1023 - 1) * 10 ^ p := by
    rw [hone, mul_comm]
    exact Nat.mul_le_mul_left _ (by omega)
  have hrounded :=
    units_roundPlaces_le hx hnonneg ⟨hp.1, by omega⟩ (by omega) (by decide) (by decide) (by decide) hbound
  rw [hone] at hrounded
  exact Double.mem_unit_iff.mpr hrounded

theorem scaled_turn_le (h : 0 ≤ x ∧ x < 360) : scaled 2 x ≤ 36000 := by
  obtain ⟨-, hnonneg, hlt⟩ := Double.mem_turn_iff.mp h
  have hmagnitude := Double.magnitude_of_nonneg hnonneg
  exact scaled_le (b := 360) (by omega) 2

theorem roundPlaces_turn_of_lt (h : 0 ≤ x ∧ x < 360) (hlt : scaled 2 x < 36000) :
    0 ≤ roundPlaces 2 x ∧ roundPlaces 2 x < 360 := by
  obtain ⟨hx, hnonneg, -⟩ := Double.mem_turn_iff.mp h
  -- 46079/128 is a double between 359.99 and 360.
  have hunit : unitsPerOne = 2 ^ 44 * 2 ^ (1031 - 1) := Double.unitsPerOne_eq_mul rfl (by decide)
  have hpos : 0 < 2 ^ (1031 - 1) := pow_pos two_pos _
  have hstep : 35999 * unitsPerOne ≤ (2 ^ 52 + (46079 * 2 ^ 37 - 2 ^ 52)) * 2 ^ (1031 - 1) * 10 ^ 2 := by omega
  have hbelow : (2 ^ 52 + (46079 * 2 ^ 37 - 2 ^ 52)) * 2 ^ (1031 - 1) < 360 * unitsPerOne := by omega
  have hbound : scaled 2 x * unitsPerOne ≤ (2 ^ 52 + (46079 * 2 ^ 37 - 2 ^ 52)) * 2 ^ (1031 - 1) * 10 ^ 2 :=
    le_trans (Nat.mul_le_mul_right _ (Nat.le_of_lt_succ hlt)) hstep
  obtain ⟨hfinite, hlow, hhigh⟩ :=
    units_roundPlaces_le hx hnonneg (by decide) (by omega) (by decide) (by decide) (by decide) hbound
  exact Double.mem_turn_iff.mpr ⟨hfinite, hlow, lt_of_le_of_lt hhigh (Int.ofNat_lt.mpr hbelow)⟩

theorem roundPlaces_turn_of_le (h : 0 ≤ x ∧ x < 360) (hle : 36000 ≤ scaled 2 x) : roundPlaces 2 x = 360 := by
  obtain ⟨hx, hnonneg, -⟩ := Double.mem_turn_iff.mp h
  have hscaled : scaled 2 x = 36000 := Nat.le_antisymm (scaled_turn_le h) hle
  have hturn : Double.ofDecimal 36000 (-((2 : Nat) : Int)) = 360 := by decide
  have hpositive : Double.isNegative x = false := by
    rw [Bool.eq_false_iff]
    intro hnegative
    rw [scaled_of_negative hnonneg hnegative] at hscaled
    cases hscaled
  unfold roundPlaces
  simp only [hx, hpositive, hscaled, hturn, if_true, if_neg Bool.false_ne_true]

/-- A hue is rounded to a full turn from half a hundredth below it on. -/
theorem scaled_turn_iff (h : 0 ≤ x ∧ x < 360) : scaled 2 x < 36000 ↔ Rational.ofDouble x < 359.995 := by
  obtain ⟨-, hnonneg, -⟩ := Double.mem_turn_iff.mp h
  have hmagnitude := Double.magnitude_of_nonneg hnonneg
  have hround : 36000 ≤ scaled 2 x ↔ 2 * (36000 * unitsPerOne) ≤ 2 * (magnitude x * 10 ^ 2) + unitsPerOne :=
    le_nearestDiv_iff unitsPerOne_pos (by decide)
  have hvalue : Rational.ofDouble x < 359.995 ↔ 200 * units x < 71999 * (unitsPerOne : Int) := by
    have hpos : (0 : Rat) < (unitsPerOne : Rat) := Nat.cast_pos.mpr unitsPerOne_pos
    have hbound : (359.995 : Rat) = 71999 / 200 := by norm_num
    change mkRat (units x) unitsPerOne < 359.995 ↔ _
    rw [Rat.mkRat_eq_div, hbound, div_lt_iff₀ hpos, ← Int.cast_lt (R := Rat)]
    push_cast
    constructor <;> intro hlt <;> linarith
  rw [hvalue, ← not_le, hround]
  omega

end Ranges

end EditorTheme.Decimal
