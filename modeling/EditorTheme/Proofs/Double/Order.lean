import EditorTheme.Proofs.Color.Range
import EditorTheme.Proofs.Double.Magnitude

/-!
The order of doubles and the sign of remainders. Comparison is total on the doubles that are no NaN, and the remainder of
a finite double by a positive one is never negative: a negative rest is no larger than the divisor that is added to it.
-/

set_option autoImplicit false
set_option relaxedAutoImplicit false

namespace EditorTheme.Double

open Float.Model Float.Model.UnpackedFloat
open Decimal (nearestDiv)

section Comparison

variable {x y : Float}

theorem lt_iff_compare : x < y ↔ x.toModel.unpack.compare y.toModel.unpack = some .lt := by
  change decide (x.toModel.unpack.lt y.toModel.unpack = true) = true ↔ _
  rw [decide_eq_true_eq, UnpackedFloat.lt, beq_iff_eq]

theorem le_iff_compare : x ≤ y ↔ ∃ order, x.toModel.unpack.compare y.toModel.unpack = some order ∧ order.isLE = true := by
  change decide (x.toModel.unpack.le y.toModel.unpack = true) = true ↔ _
  rw [decide_eq_true_eq, UnpackedFloat.le, Option.any_eq_true]

theorem then_compare_swap (e₁ e₂ : Int) (m₁ m₂ : Nat) :
    (compare e₂ e₁).then (compare m₂ m₁) = ((compare e₁ e₂).then (compare m₁ m₂)).swap := by
  rw [Ordering.swap_then, ← Std.OrientedCmp.eq_swap, ← Std.OrientedCmp.eq_swap]

theorem compare_swap (f g : UnpackedFloat) : g.compare f = (f.compare g).map Ordering.swap := by
  rcases f with ⟨_ | _⟩ | _ | ⟨_ | _⟩ | ⟨_ | _, m₁, e₁, h₁⟩ <;>
    rcases g with ⟨_ | _⟩ | _ | ⟨_ | _⟩ | ⟨_ | _, m₂, e₂, h₂⟩ <;> first
    | rfl
    | exact congrArg some (then_compare_swap e₁ e₂ m₁ m₂)
    | exact congrArg (fun o => some o.swap) (then_compare_swap e₁ e₂ m₁ m₂)

theorem compare_eq_none_iff (f g : UnpackedFloat) : f.compare g = none ↔ f = .notANumber ∨ g = .notANumber := by
  constructor
  · rcases f with ⟨_ | _⟩ | _ | ⟨_ | _⟩ | ⟨_ | _, m₁, e₁, h₁⟩ <;>
      rcases g with ⟨_ | _⟩ | _ | ⟨_ | _⟩ | ⟨_ | _, m₂, e₂, h₂⟩ <;> first
      | exact fun _ => Or.inl rfl
      | exact fun _ => Or.inr rfl
      | exact fun h => nomatch h
  · rintro (rfl | rfl)
    · rfl
    · cases f <;> rfl

theorem le_of_lt (h : x < y) : x ≤ y := le_iff_compare.mpr ⟨.lt, lt_iff_compare.mp h, rfl⟩

theorem le_self_iff : x ≤ x ↔ x.toModel.unpack ≠ .notANumber := by
  rw [le_iff_compare]
  constructor
  · rintro ⟨order, horder, -⟩ hnan
    rw [(compare_eq_none_iff _ _).mpr (Or.inl hnan)] at horder
    cases horder
  · intro hnumber
    cases hcompare : x.toModel.unpack.compare x.toModel.unpack with
    | none =>
      have hnan := (compare_eq_none_iff _ _).mp hcompare
      exact absurd (hnan.elim id id) hnumber
    | some order =>
      have hswap := compare_swap x.toModel.unpack x.toModel.unpack
      rw [hcompare, Option.map_some] at hswap
      refine ⟨order, rfl, ?_⟩
      cases order <;> first | rfl | cases hswap

theorem numbers_of_le (h : x ≤ y) : x ≤ x ∧ y ≤ y := by
  obtain ⟨order, horder, -⟩ := le_iff_compare.mp h
  have hnumbers : ¬ (x.toModel.unpack = .notANumber ∨ y.toModel.unpack = .notANumber) := by
    rw [← compare_eq_none_iff, horder]
    exact Option.some_ne_none order
  rw [le_self_iff, le_self_iff]
  exact not_or.mp hnumbers

theorem lt_of_not_le (hx : x ≤ x) (hy : y ≤ y) (h : ¬ y ≤ x) : x < y := by
  rw [lt_iff_compare, compare_swap]
  cases hcompare : y.toModel.unpack.compare x.toModel.unpack with
  | none =>
    rcases (compare_eq_none_iff _ _).mp hcompare with hnan | hnan
    · exact absurd hnan (le_self_iff.mp hy)
    · exact absurd hnan (le_self_iff.mp hx)
  | some order =>
    cases order with
    | lt => exact absurd (le_iff_compare.mpr ⟨.lt, hcompare, rfl⟩) h
    | eq => exact absurd (le_iff_compare.mpr ⟨.eq, hcompare, rfl⟩) h
    | gt => rfl

end Comparison

section Sign

def Nonneg : UnpackedFloat → Prop
  | .notANumber => False
  | .infinity s => s = .positive
  | .zero s => s = .positive
  | .finite s _ _ _ => s = .positive

theorem compare_zero_ofFields {e m : Nat} (hnumber : e * 2 ^ 52 + m ≤ 2047 * 2 ^ 52) :
    ∃ order, (ofFields .positive 0 0).compare (ofFields .positive e m) = some order ∧ order.isLE = true := by
  by_cases htop : e = 2047
  · obtain rfl : m = 0 := by omega
    rw [htop]
    exact ⟨.lt, rfl, rfl⟩
  by_cases hbottom : e = 0
  · rw [hbottom]
    by_cases hzero : m = 0
    · rw [hzero]
      exact ⟨.eq, rfl, rfl⟩
    · rw [ofFields_of_not_zero .positive hzero]
      exact ⟨.lt, rfl, rfl⟩
  · rw [ofFields_of_inner .positive m htop hbottom]
    exact ⟨.lt, rfl, rfl⟩

theorem hasFields_zero : HasFields (0 : Float) .positive 0 0 := ⟨by decide, by decide, by decide⟩

theorem nonneg_of_toBits_le {x : Float} (h : x.toBits.toNat ≤ 2047 * 2 ^ 52) : 0 ≤ x := by
  have hx : HasFields x .positive (x.toBits.toNat / 2 ^ 52) (x.toBits.toNat % 2 ^ 52) := by
    have hpositive : Sign.positive.toBitVec.toNat = 0 := rfl
    exact ⟨by omega, by omega, by omega⟩
  rw [le_iff_compare, hasFields_zero.unpack, hx.unpack]
  exact compare_zero_ofFields (by omega)

theorem toNat_pack_le {f : UnpackedFloat} (h : Nonneg f) :
    (UnpackedFloat.pack Format.binary64 f).toNat ≤ 2047 * 2 ^ 52 := by
  have hpositive : Sign.positive.toBitVec.toNat = 0 := rfl
  have hinfinity : (packedInfinity Format.binary64 .positive).toNat = 2047 * 2 ^ 52 :=
    toNat_packComponents .positive (-1#11) 0#52
  cases f with
  | notANumber => cases h
  | infinity s =>
    obtain rfl : s = .positive := h
    exact hinfinity.le
  | zero s =>
    obtain rfl : s = .positive := h
    exact (toNat_packComponents .positive 0#11 0#52).le.trans (by decide)
  | finite s m e hm =>
    obtain rfl : s = .positive := h
    rw [pack_finite]
    split_ifs with hroom hfull
    · exact hinfinity.le
    · have hbits : 2 ^ Format.binary64.exponentBits = 2048 := rfl
      have hfraction : (BitVec.ofNat 52 m).toNat < 2 ^ 52 := (BitVec.ofNat 52 m).isLt
      rw [toNat_packComponents, BitVec.toNat_ofNat]
      omega
    · have hfraction : (BitVec.ofNat 52 m).toNat < 2 ^ 52 := (BitVec.ofNat 52 m).isLt
      rw [toNat_packComponents, BitVec.toNat_ofNat]
      omega

theorem nonneg_dite {m : Nat} (e : Int) (hm : ¬ m = 0 → 0 < m) :
    Nonneg (if h : m = 0 then .zero .positive else .finite .positive m e (hm h)) := by
  by_cases h : m = 0
  · rw [dif_pos h]
    rfl
  · rw [dif_neg h]
    rfl

theorem nonneg_normalize {mantissa : Int} (h : 0 ≤ mantissa) (e : Int) :
    Nonneg (UnpackedFloat.normalize Format.binary64 mantissa e .positive) := by
  have hround : ∀ m e, Nonneg (UnpackedFloat.round Format.binary64 .positive m e) := fun _ _ => nonneg_dite _ _
  unfold UnpackedFloat.normalize
  cases hcompare : compare mantissa 0 with
  | lt =>
    have hlt := Int.compare_eq_lt.mp hcompare
    omega
  | eq => rfl
  | gt => exact hround _ _

theorem ofFields_eq_finite (s : Sign) {e m : Nat} (he : e ≠ 2047) (hne : e = 0 → m ≠ 0) :
    ∃ h, ofFields s e m = .finite s (if e = 0 then m else 2 ^ 52 + m) ((e - 1 : Nat) - 1074) h := by
  unfold ofFields
  rw [if_neg he]
  by_cases hbottom : e = 0
  · subst hbottom
    rw [if_pos rfl, dif_neg (hne rfl)]
    exact ⟨Nat.pos_of_ne_zero (hne rfl), rfl⟩
  · have hsignificand : (if e = 0 then m else 2 ^ 52 + m) = 2 ^ 52 + m := if_neg hbottom
    have hscale : (e : Int) - 1075 = (e - 1 : Nat) - 1074 := by omega
    refine ⟨by omega, (if_neg hbottom).trans ?_⟩
    rw [UnpackedFloat.finite.injEq]
    exact ⟨rfl, hsignificand.symm, hscale⟩

theorem nonneg_add {m₁ m₂ k₁ k₂ : Nat} (h₁ : 0 < m₁) (h₂ : 0 < m₂) (hle : m₁ * 2 ^ k₁ ≤ m₂ * 2 ^ k₂) :
    Nonneg (UnpackedFloat.add Format.binary64 (.finite .negative m₁ ((k₁ : Int) - 1074) h₁)
      (.finite .positive m₂ ((k₂ : Int) - 1074) h₂)) := by
  have hfirst : ((k₁ : Int) - 1074 - min ((k₁ : Int) - 1074) ((k₂ : Int) - 1074)).toNat = k₁ - min k₁ k₂ := by omega
  have hsecond : ((k₂ : Int) - 1074 - min ((k₁ : Int) - 1074) ((k₂ : Int) - 1074)).toNat = k₂ - min k₁ k₂ := by omega
  have haligned : m₁ * 2 ^ (k₁ - min k₁ k₂) ≤ m₂ * 2 ^ (k₂ - min k₁ k₂) := by
    have hk₁ : k₁ = k₁ - min k₁ k₂ + min k₁ k₂ := by omega
    have hk₂ : k₂ = k₂ - min k₁ k₂ + min k₁ k₂ := by omega
    rw [two_pow_eq_mul hk₁, two_pow_eq_mul hk₂, ← mul_assoc, ← mul_assoc] at hle
    exact Nat.le_of_mul_le_mul_right hle (Nat.two_pow_pos _)
  refine nonneg_normalize ?_ _
  show 0 ≤ -((m₁ <<< ((k₁ : Int) - 1074 - min ((k₁ : Int) - 1074) ((k₂ : Int) - 1074)).toNat : Nat) : Int) +
    (m₂ <<< ((k₂ : Int) - 1074 - min ((k₁ : Int) - 1074) ((k₂ : Int) - 1074)).toNat : Nat)
  rw [hfirst, hsecond, Nat.shiftLeft_eq, Nat.shiftLeft_eq]
  omega

end Sign

section Remainder

theorem hasFields_turn : HasFields (360 : Float) .positive 1031 0x6800000000000 :=
  ⟨by decide, by decide, by decide⟩

theorem units_turn : units 360 = magnitude 360 := by
  unfold units
  rw [if_neg (hasFields_turn.isNegative.not.mpr Sign.noConfusion)]

theorem toBits_ofMagnitude_le (n : Nat) : (ofMagnitude n).toBits.toNat ≤ 2047 * 2 ^ 52 := by
  have hfields := hasFields_ofMagnitude n
  have hpositive : Sign.positive.toBitVec.toNat = 0 := rfl
  rw [hfields.toNat_toBits]
  omega

theorem roundedBits_lt_of_le_turn {n : Nat} (h : n ≤ magnitude 360) : roundedBits n < 2047 * 2 ^ 52 := by
  rw [hasFields_turn.magnitude] at h
  exact roundedBits_lt_of_le (by norm_num) (by decide) h

/-- A negative rest of no more than a full turn does not outweigh the turn that is added to it. -/
theorem toBits_neg_add_turn_le {n : Nat} (h : n ≤ magnitude 360) :
    (-(ofMagnitude n) + (360 : Float)).toBits.toNat ≤ 2047 * 2 ^ 52 := by
  have hreach := roundedBits_lt_of_le_turn h
  have hfields := hasFields_ofMagnitude n
  rw [min_eq_left hreach.le] at hfields
  have hmagnitude := magnitude_ofMagnitude hreach
  rw [hfields.magnitude] at hmagnitude
  rw [hasFields_turn.magnitude] at h
  have hrounded := rounded_le (by norm_num) h
  rw [← hmagnitude] at hrounded
  have hneg := hfields.neg (by omega)
  have htop : roundedBits n / 2 ^ 52 ≠ 2047 := by omega
  generalize roundedBits n / 2 ^ 52 = e at *
  generalize roundedBits n % 2 ^ 52 = m at *
  change (UnpackedFloat.pack Format.binary64
    (UnpackedFloat.add Format.binary64 (-(ofMagnitude n)).toModel.unpack (360 : Float).toModel.unpack)).toNat ≤ _
  rw [hneg.unpack, hasFields_turn.unpack]
  refine toNat_pack_le ?_
  obtain ⟨hturnpos, hturn⟩ := ofFields_eq_finite .positive (e := 1031) (m := 0x6800000000000) (by decide) (by decide)
  rw [hturn]
  by_cases hzero : e = 0 ∧ m = 0
  · obtain ⟨rfl, rfl⟩ := hzero
    rfl
  · obtain ⟨hpos, hfinite⟩ := ofFields_eq_finite (-.positive) htop (m := m) (by omega)
    rw [hfinite]
    exact nonneg_add hpos hturnpos hrounded

theorem magnitude_turn_pos : 0 < magnitude 360 := by
  rw [hasFields_turn.magnitude]
  exact Nat.mul_pos (by decide) (pow_pos two_pos _)

/-- What is left of a finite number of degrees after whole turns has no sign. -/
theorem toBits_remainder_turn_le {x : Float} (h : x.isFinite = true) :
    (remainder x 360).toBits.toNat ≤ 2047 * 2 ^ 52 := by
  have hfinite : (360 : Float).isFinite = true := hasFields_turn.isFinite.mpr (by decide)
  have hne : ((360 : Float) != 0) = true := by decide
  have hpositive : isNegative (360 : Float) = false :=
    Bool.eq_false_iff.mpr (hasFields_turn.isNegative.not.mpr Sign.noConfusion)
  have hturn : 0 < (magnitude 360 : Int) := Int.natCast_pos.mpr magnitude_turn_pos
  have hbound : ((units x).tmod (magnitude 360)).natAbs ≤ magnitude 360 := by
    rw [Int.natAbs_tmod, Int.natAbs_natCast]
    exact (Nat.mod_lt _ magnitude_turn_pos).le
  unfold remainder
  simp only [h, hfinite, hne, Bool.and_true, if_true, hpositive, units_turn]
  generalize (units x).tmod (magnitude 360) = rest at hbound
  unfold ofUnits
  split_ifs with hzero hsign hsame hnegative hnegative
  · exact absurd hsign id
  · decide
  · omega
  · exact toBits_ofMagnitude_le rest.natAbs
  · exact toBits_neg_add_turn_le hbound
  · omega

theorem remainder_turn_nonneg {x : Float} (h : x.isFinite = true) : 0 ≤ remainder x 360 :=
  nonneg_of_toBits_le (toBits_remainder_turn_le h)

end Remainder

instance : OrderedScalar Float where
  le_of_lt := le_of_lt
  le_self_left := fun h => (numbers_of_le h).1
  le_self_right := fun h => (numbers_of_le h).2
  lt_of_not_le := lt_of_not_le
  unit_pos := by decide
  turn_pos := by decide
  remainder_nonneg := remainder_turn_nonneg

end EditorTheme.Double
