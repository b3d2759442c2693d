import EditorTheme.Proofs.Double.Rounding
import EditorTheme.Proofs.Double.Order

/-!
Sums of doubles. The sum of two finite doubles is the double nearest to the exact sum of their units.
-/

set_option autoImplicit false
set_option relaxedAutoImplicit false

namespace EditorTheme.Double

open Float.Model Float.Model.UnpackedFloat

def signOf (n : Int) : Sign := if n < 0 then .negative else .positive

section Fields

variable {x : Float} {s : Sign} {e m : Nat}

theorem hasFields_of_toNat {bits : Nat} (h : x.toBits.toNat = s.toBitVec.toNat * 2 ^ 63 + bits)
    (hlt : bits < 2047 * 2 ^ 52) : HasFields x s (bits / 2 ^ 52) (bits % 2 ^ 52) :=
  ⟨by omega, by omega, by rw [h, add_assoc, Nat.div_add_mod']⟩

theorem HasFields.units (h : HasFields x s e m) : units x = s.apply (Double.magnitude x) := by
  unfold Double.units
  cases s with
  | negative =>
    rw [if_pos (h.isNegative.mpr rfl)]
    rfl
  | positive =>
    rw [if_neg (h.isNegative.not.mpr Sign.noConfusion)]
    rfl

theorem HasFields.units_zero (h : HasFields x .positive 0 0) : x.isFinite = true ∧ Double.units x = 0 := by
  refine ⟨h.isFinite.mpr (by decide), ?_⟩
  rw [h.units, h.magnitude]
  rfl

theorem HasFields.roundedBits (h : HasFields x s e m) : roundedBits (Double.magnitude x) = e * 2 ^ 52 + m := by
  have hm := h.mantissa_lt
  rw [h.magnitude]
  unfold Double.roundedBits
  by_cases hbottom : e = 0
  · have hlog : m.log2 - 52 = 0 := by
      by_cases hzero : m = 0
      · rw [hzero]
        rfl
      · have hlt := (Nat.log2_lt hzero).mpr hm
        omega
    have hsame : Decimal.nearestDiv (m * 1) 1 = m := Decimal.nearestDiv_mul_self m Nat.one_pos
    rw [hbottom, if_pos rfl, Nat.zero_sub, pow_zero, mul_one, hlog, pow_zero]
    rw [mul_one] at hsame
    rw [hsame]
  · have hlog : (2 ^ 52 + m).log2 = 52 := (Nat.log2_eq_iff (by omega)).mpr ⟨by omega, by omega⟩
    have hscaled : ((2 ^ 52 + m) * 2 ^ (e - 1)).log2 - 52 = e - 1 := by
      rw [log2_mul_two_pow (by omega), hlog]
      omega
    rw [if_neg hbottom, hscaled, Decimal.nearestDiv_mul_self _ (Nat.two_pow_pos _)]
    omega

theorem units_le_of_toBits_le (he : 0 < e) (htop : e < 2047) (hm : m < 2 ^ 52)
    (h : x.toBits.toNat ≤ e * 2 ^ 52 + m) :
    x.isFinite = true ∧ 0 ≤ units x ∧ units x ≤ (((2 ^ 52 + m) * 2 ^ (e - 1) : Nat) : Int) := by
  have hpositive : Sign.positive.toBitVec.toNat = 0 := rfl
  have hfields : HasFields x .positive (x.toBits.toNat / 2 ^ 52) (x.toBits.toNat % 2 ^ 52) :=
    ⟨by omega, by omega, by omega⟩
  have hunits : units x = (magnitude x : Int) := hfields.units
  have hmagnitude : magnitude x ≤ (2 ^ 52 + m) * 2 ^ (e - 1) := by
    rw [hfields.magnitude]
    have hlow : x.toBits.toNat % 2 ^ 52 < 2 ^ 52 := Nat.mod_lt _ (by decide)
    rcases Nat.lt_or_ge (x.toBits.toNat / 2 ^ 52) e with hbelow | hsame
    · have hstep : 2 ^ (x.toBits.toNat / 2 ^ 52 - 1) ≤ 2 ^ (e - 1) := Nat.pow_le_pow_right two_pos (by omega)
      split_ifs with hbottom
      · exact Nat.mul_le_mul (by omega) hstep
      · have hsplit : 2 ^ (e - 1) = 2 ^ 1 * 2 ^ (e - 2) := two_pow_eq_mul (by omega)
        have hstep : 2 ^ (x.toBits.toNat / 2 ^ 52 - 1) ≤ 2 ^ (e - 2) := Nat.pow_le_pow_right two_pos (by omega)
        rw [hsplit, ← mul_assoc]
        exact Nat.mul_le_mul (by omega) hstep
    · obtain heq : x.toBits.toNat / 2 ^ 52 = e := by omega
      rw [heq, if_neg he.ne']
      exact Nat.mul_le_mul_right _ (by omega)
  refine ⟨hfields.isFinite.mpr (by omega), ?_, ?_⟩
  · rw [hunits]
    exact Int.natCast_nonneg _
  · rw [hunits]
    exact_mod_cast hmagnitude

theorem units_of_toBits_eq {n : Nat} (h : x.toBits.toNat = Double.roundedBits n)
    (hreach : Double.roundedBits n < 2047 * 2 ^ 52) : x.isFinite = true ∧
      Double.units x = ((Decimal.nearestDiv n (2 ^ (n.log2 - 52)) * 2 ^ (n.log2 - 52) : Nat) : Int) := by
  have hpositive : Sign.positive.toBitVec.toNat = 0 := rfl
  have hfields : HasFields x .positive (Double.roundedBits n / 2 ^ 52) (Double.roundedBits n % 2 ^ 52) :=
    hasFields_of_toNat (by omega) hreach
  have hnearest := hasFields_ofMagnitude n
  rw [min_eq_left hreach.le] at hnearest
  have hunits : Double.units x = (Double.magnitude x : Int) := hfields.units
  refine ⟨hfields.isFinite.mpr (by omega), ?_⟩
  rw [hunits, hfields.magnitude, ← hnearest.magnitude, magnitude_ofMagnitude hreach]

end Fields

section Sum

theorem toNat_pack_normalize {a : Int} (ha : a ≠ 0) (k : Nat) (zeroSign : Sign) :
    (UnpackedFloat.pack Format.binary64 (UnpackedFloat.normalize Format.binary64 a ((k : Int) - 1074) zeroSign)).toNat =
      (signOf a).toBitVec.toNat * 2 ^ 63 + min (roundedBits (a.natAbs * 2 ^ k)) (2047 * 2 ^ 52) := by
  unfold UnpackedFloat.normalize signOf
  cases hcompare : compare a 0 with
  | lt =>
    have hlt : a < 0 := Int.compare_eq_lt.mp hcompare
    have habs : (-a).toNat = a.natAbs := by omega
    dsimp only
    rw [if_pos hlt, habs, toNat_pack_round .negative (Int.natAbs_ne_zero.mpr ha)]
  | eq => exact absurd (Int.compare_eq_eq.mp hcompare) ha
  | gt =>
    have hgt : 0 < a := Int.compare_eq_gt.mp hcompare
    have habs : a.toNat = a.natAbs := by omega
    dsimp only
    rw [if_neg (by omega), habs, toNat_pack_round .positive (Int.natAbs_ne_zero.mpr ha)]

theorem apply_mul (s : Sign) (a b : Int) : s.apply (a * b) = s.apply a * b := by
  cases s with
  | negative => exact (Int.neg_mul a b).symm
  | positive => rfl

theorem apply_ne_zero (s : Sign) {n : Nat} (hn : 0 < n) : s.apply (n : Int) ≠ 0 := by
  cases s with
  | negative => exact Int.neg_ne_zero.mpr (Int.natCast_pos.mpr hn).ne'
  | positive => exact (Int.natCast_pos.mpr hn).ne'

theorem signOf_mul {a : Int} {n : Nat} (hn : 0 < n) : signOf (a * n) = signOf a := by
  have hiff : a * n < 0 ↔ a < 0 := by
    constructor
    · intro h
      by_contra hnot
      have hnonneg : 0 ≤ a * n := Int.mul_nonneg (by omega) (by omega)
      omega
    · intro h
      exact Int.mul_neg_of_neg_of_pos h (by omega)
  unfold signOf
  exact if_congr hiff rfl rfl

/-- Two numbers are added at the smaller of their scales. -/
theorem toNat_pack_add {s₁ s₂ : Sign} {m₁ m₂ k₁ k₂ : Nat} (h₁ : 0 < m₁) (h₂ : 0 < m₂) {n : Int}
    (hn : n = s₁.apply ((m₁ * 2 ^ k₁ : Nat) : Int) + s₂.apply ((m₂ * 2 ^ k₂ : Nat) : Int)) (hne : n ≠ 0) :
    (UnpackedFloat.pack Format.binary64 (UnpackedFloat.add Format.binary64 (.finite s₁ m₁ ((k₁ : Int) - 1074) h₁)
      (.finite s₂ m₂ ((k₂ : Int) - 1074) h₂))).toNat =
      (signOf n).toBitVec.toNat * 2 ^ 63 + min (roundedBits n.natAbs) (2047 * 2 ^ 52) := by
  have hscale : min ((k₁ : Int) - 1074) ((k₂ : Int) - 1074) = ((min k₁ k₂ : Nat) : Int) - 1074 := by omega
  have hfirst : ((k₁ : Int) - 1074 - (((min k₁ k₂ : Nat) : Int) - 1074)).toNat = k₁ - min k₁ k₂ := by omega
  have hsecond : ((k₂ : Int) - 1074 - (((min k₁ k₂ : Nat) : Int) - 1074)).toNat = k₂ - min k₁ k₂ := by omega
  have hk₁ : k₁ = k₁ - min k₁ k₂ + min k₁ k₂ := by omega
  have hk₂ : k₂ = k₂ - min k₁ k₂ + min k₁ k₂ := by omega
  have haligned : n = (s₁.apply ((m₁ * 2 ^ (k₁ - min k₁ k₂) : Nat) : Int) +
      s₂.apply ((m₂ * 2 ^ (k₂ - min k₁ k₂) : Nat) : Int)) * ((2 ^ min k₁ k₂ : Nat) : Int) := by
    rw [add_mul, ← apply_mul, ← apply_mul, ← Int.natCast_mul, ← Int.natCast_mul, mul_assoc, mul_assoc,
      ← two_pow_eq_mul hk₁, ← two_pow_eq_mul hk₂]
    exact hn
  have hsum : UnpackedFloat.add Format.binary64 (.finite s₁ m₁ ((k₁ : Int) - 1074) h₁)
      (.finite s₂ m₂ ((k₂ : Int) - 1074) h₂) =
      UnpackedFloat.normalize Format.binary64 (s₁.apply ((m₁ * 2 ^ (k₁ - min k₁ k₂) : Nat) : Int) +
        s₂.apply ((m₂ * 2 ^ (k₂ - min k₁ k₂) : Nat) : Int)) (((min k₁ k₂ : Nat) : Int) - 1074) .positive := by
    unfold UnpackedFloat.add decreaseExponent
    dsimp only
    rw [hscale, hfirst, hsecond, Nat.shiftLeft_eq, Nat.shiftLeft_eq]
  rw [hsum]
  generalize s₁.apply ((m₁ * 2 ^ (k₁ - min k₁ k₂) : Nat) : Int) + s₂.apply ((m₂ * 2 ^ (k₂ - min k₁ k₂) : Nat) : Int) = a
    at haligned
  have ha : a ≠ 0 := by
    rintro rfl
    rw [zero_mul] at haligned
    exact hne haligned
  rw [toNat_pack_normalize ha, haligned, signOf_mul (Nat.two_pow_pos _), Int.natAbs_mul, Int.natAbs_natCast]

end Sum

section Finite

variable {x y : Float}

/-- The bits of the double nearest to a number of units that is not zero. -/
def nearestBits (n : Int) : Nat :=
  (signOf n).toBitVec.toNat * 2 ^ 63 + min (roundedBits n.natAbs) (2047 * 2 ^ 52)

/-- A significand of at most 53 bits, which is full unless the scale is the least one. -/
structure Canonical (m k : Nat) : Prop where
  lt : m < 2 ^ 53
  full : k ≠ 0 → 2 ^ 52 ≤ m

/-- A finite double as its model has it. -/
inductive Model (x : Float) : Prop
  | zero {s : Sign} (hunits : units x = 0) (hunpack : x.toModel.unpack = .zero s) : Model x
  | finite {s : Sign} {m k : Nat} (hm : 0 < m) (hunits : units x = s.apply ((m * 2 ^ k : Nat) : Int))
      (hunpack : x.toModel.unpack = .finite s m ((k : Int) - 1074) hm) (hcanonical : Canonical m k) : Model x

theorem exists_finite_fields (h : x.isFinite = true) : ∃ s e m, HasFields x s e m ∧ e ≠ 2047 := by
  obtain ⟨s, e, m, hfields⟩ := exists_hasFields x
  exact ⟨s, e, m, hfields, hfields.isFinite.mp h⟩

theorem model_of_isFinite (h : x.isFinite = true) : Model x := by
  obtain ⟨s, e, m, hfields, htop⟩ := exists_finite_fields h
  have hunits := hfields.units
  rw [hfields.magnitude] at hunits
  by_cases hzero : e = 0 ∧ m = 0
  · obtain ⟨rfl, rfl⟩ := hzero
    have hnone : units x = 0 := by
      rw [hunits]
      cases s <;> rfl
    exact .zero hnone hfields.unpack
  · obtain ⟨hpos, hfinite⟩ := ofFields_eq_finite s htop (m := m) (by omega)
    have hlt := hfields.mantissa_lt
    have hcanonical : Canonical (if e = 0 then m else 2 ^ 52 + m) (e - 1) := by
      split_ifs with hbottom
      · exact ⟨by omega, fun hscale => absurd (by omega) hscale⟩
      · exact ⟨by omega, fun _ => by omega⟩
    exact .finite hpos hunits (hfields.unpack.trans hfinite) hcanonical

theorem exists_model_of_units {n : Nat} (hx : x.isFinite = true) (hn : 0 < n) (hunits : units x = n) :
    ∃ m k : Nat, ∃ hm : 0 < m, n = m * 2 ^ k ∧ Canonical m k ∧
      x.toModel.unpack = .finite .positive m ((k : Int) - 1074) hm := by
  cases model_of_isFinite hx with
  | zero hzero => omega
  | @finite s m k hm hxunits hunpack hcanonical =>
    cases s with
    | negative =>
      have hneg : units x = -((m * 2 ^ k : Nat) : Int) := hxunits
      omega
    | positive =>
      have hsame : units x = ((m * 2 ^ k : Nat) : Int) := hxunits
      exact ⟨m, k, hm, by omega, hcanonical, hunpack⟩

theorem toNat_pack_unpack (h : x.isFinite = true) :
    (UnpackedFloat.pack Format.binary64 x.toModel.unpack).toNat = x.toBits.toNat := by
  obtain ⟨s, e, m, hfields, htop⟩ := exists_finite_fields h
  have hm := hfields.mantissa_lt
  have he := hfields.exponent_le
  rw [hfields.unpack, toNat_pack_ofFields s hm (by omega), hfields.toNat_toBits]

theorem toNat_toBits_of_units (h : x.isFinite = true) (hne : units x ≠ 0) : x.toBits.toNat = nearestBits (units x) := by
  obtain ⟨s, e, m, hfields, htop⟩ := exists_finite_fields h
  have hm := hfields.mantissa_lt
  have he := hfields.exponent_le
  have hunits := hfields.units
  have hrounded := hfields.roundedBits
  have hsign : signOf (units x) = s := by
    unfold signOf
    cases s with
    | negative =>
      have hneg : units x = -(magnitude x : Int) := hunits
      exact if_pos (by omega)
    | positive =>
      have hpos : units x = magnitude x := hunits
      exact if_neg (by omega)
  have habs : (units x).natAbs = magnitude x := by
    rw [hunits]
    cases s with
    | negative => exact (Int.natAbs_neg _).trans (Int.natAbs_natCast _)
    | positive => exact Int.natAbs_natCast _
  rw [nearestBits, hsign, habs, hrounded, hfields.toNat_toBits]
  omega

/-- The sum of finite doubles is the double nearest to the sum of their units. -/
theorem toNat_toBits_add (hx : x.isFinite = true) (hy : y.isFinite = true) (hne : units x + units y ≠ 0) :
    (x + y).toBits.toNat = nearestBits (units x + units y) := by
  change (UnpackedFloat.pack Format.binary64
    (UnpackedFloat.add Format.binary64 x.toModel.unpack y.toModel.unpack)).toNat = _
  cases model_of_isFinite hx with
  | zero hxunits hxunpack =>
    rw [hxunits, zero_add] at hne ⊢
    cases model_of_isFinite hy with
    | zero hyunits => exact absurd hyunits hne
    | finite hm hyunits hyunpack =>
      rw [← toNat_toBits_of_units hy hne, ← toNat_pack_unpack hy, hxunpack, hyunpack]
      rfl
  | finite hm hxunits hxunpack =>
    cases model_of_isFinite hy with
    | zero hyunits hyunpack =>
      rw [hyunits, add_zero] at hne ⊢
      rw [← toNat_toBits_of_units hx hne, ← toNat_pack_unpack hx, hxunpack, hyunpack]
      rfl
    | finite hm' hyunits hyunpack =>
      rw [hxunpack, hyunpack]
      exact toNat_pack_add hm hm' (by rw [hxunits, hyunits]) hne

theorem sub_eq_add_neg (f g : UnpackedFloat) :
    UnpackedFloat.sub Format.binary64 f g = UnpackedFloat.add Format.binary64 f g.neg := by
  cases f with
  | notANumber => cases g <;> rfl
  | infinity s₁ => cases g <;> rfl
  | zero s₁ => cases g <;> rfl
  | finite s₁ m₁ e₁ h₁ =>
    cases g with
    | notANumber => rfl
    | infinity s₂ => rfl
    | zero s₂ => rfl
    | finite s₂ m₂ e₂ h₂ =>
      have happly : ∀ n : Int, (-s₂).apply n = -s₂.apply n := by
        intro n
        cases s₂ with
        | negative => exact (Int.neg_neg n).symm
        | positive => rfl
      show UnpackedFloat.normalize Format.binary64 (_ - s₂.apply _) _ _ =
        UnpackedFloat.normalize Format.binary64 (_ + (-s₂).apply _) _ _
      rw [happly, Int.sub_eq_add_neg]

theorem exists_fields_neg (hy : y.isFinite = true) : (-y).isFinite = true ∧ units (-y) = -units y ∧
    (-y).toModel.unpack = y.toModel.unpack.neg := by
  obtain ⟨s, e, m, hfields, htop⟩ := exists_finite_fields hy
  have hm := hfields.mantissa_lt
  have he := hfields.exponent_le
  have hneg := hfields.neg (by omega)
  refine ⟨hneg.isFinite.mpr htop, ?_, ?_⟩
  · rw [hneg.units, hfields.units, hneg.magnitude, hfields.magnitude]
    cases s with
    | negative => exact (Int.neg_neg _).symm
    | positive => rfl
  · rw [hneg.unpack, hfields.unpack, neg_ofFields]

theorem toNat_toBits_sub (hx : x.isFinite = true) (hy : y.isFinite = true) (hne : units x - units y ≠ 0) :
    (x - y).toBits.toNat = nearestBits (units x - units y) := by
  obtain ⟨hfinite, hunits, hunpack⟩ := exists_fields_neg hy
  have hsum : (x - y).toBits.toNat = (x + -y).toBits.toNat := by
    change (UnpackedFloat.pack Format.binary64
      (UnpackedFloat.sub Format.binary64 x.toModel.unpack y.toModel.unpack)).toNat =
      (UnpackedFloat.pack Format.binary64
        (UnpackedFloat.add Format.binary64 x.toModel.unpack (-y).toModel.unpack)).toNat
    rw [sub_eq_add_neg, hunpack]
  rw [Int.sub_eq_add_neg, ← hunits] at hne ⊢
  rw [hsum, toNat_toBits_add hx hfinite hne]

theorem toBits_of_beq_zero (h : (x == 0) = true) : x.toBits.toNat % 2 ^ 63 = 0 := by
  obtain ⟨s, e, m, hfields⟩ := exists_hasFields x
  have hm := hfields.mantissa_lt
  have hbits := hfields.toNat_toBits
  change (x.toModel.unpack.compare (0 : Float).toModel.unpack == some .eq) = true at h
  rw [beq_iff_eq, hfields.unpack, hasFields_zero.unpack] at h
  have hnone : ofFields .positive 0 0 = .zero .positive := rfl
  rw [hnone] at h
  by_cases htop : e = 2047
  · rw [htop] at h
    by_cases hm : m = 0
    · rw [hm] at h
      cases s <;> cases h
    · rw [ofFields_of_nan s hm] at h
      cases h
  by_cases hbottom : e = 0
  · rw [hbottom] at h
    by_cases hm : m = 0
    · rw [hbottom, hm] at hbits
      omega
    · rw [ofFields_of_not_zero s hm] at h
      cases s <;> cases h
  · rw [ofFields_of_inner s m htop hbottom] at h
    cases s <;> cases h

theorem nearestBits_mod_ne_zero {n : Int} (hn : n ≠ 0) : nearestBits n % 2 ^ 63 ≠ 0 := by
  have hpos : 0 < roundedBits n.natAbs := roundedBits_pos (Int.natAbs_ne_zero.mpr hn)
  unfold nearestBits
  omega

theorem units_add_of_beq_zero (hx : x.isFinite = true) (hy : y.isFinite = true) (h : (x + y == 0) = true) :
    units x + units y = 0 := by
  by_contra hne
  have hbits := toBits_of_beq_zero h
  rw [toNat_toBits_add hx hy hne] at hbits
  exact nearestBits_mod_ne_zero hne hbits

theorem units_sub_of_beq_zero (hx : x.isFinite = true) (hy : y.isFinite = true) (h : (x - y == 0) = true) :
    units x = units y := by
  by_contra hdiffer
  have hne : units x - units y ≠ 0 := by omega
  have hbits := toBits_of_beq_zero h
  rw [toNat_toBits_sub hx hy hne] at hbits
  exact nearestBits_mod_ne_zero hne hbits

/-- A positive sum does not pass a number of 53 bits that the exact sum does not pass. -/
theorem units_add_le (hx : x.isFinite = true) (hy : y.isFinite = true) {a k : Nat} (ha : a < 2 ^ 53) (hk : k ≤ 2044)
    (hpos : 0 < units x + units y) (hle : units x + units y ≤ ((a * 2 ^ k : Nat) : Int)) :
    (x + y).isFinite = true ∧ units (x + y) ≤ ((a * 2 ^ k : Nat) : Int) := by
  have hbits := toNat_toBits_add hx hy hpos.ne'
  obtain ⟨n, hn⟩ := Int.eq_ofNat_of_zero_le hpos.le
  rw [hn] at hbits hle
  have hbound : n ≤ a * 2 ^ k := by exact_mod_cast hle
  have hreach : roundedBits n < 2047 * 2 ^ 52 := roundedBits_lt_of_le ha hk hbound
  have hsum : (x + y).toBits.toNat = roundedBits n := by
    have hsign : signOf (n : Int) = .positive := if_neg (by omega)
    have hpositive : Sign.positive.toBitVec.toNat = 0 := rfl
    rw [hbits, nearestBits, hsign, hpositive, Int.natAbs_natCast, min_eq_left hreach.le, Nat.zero_mul, Nat.zero_add]
  obtain ⟨hfinite, hunits⟩ := units_of_toBits_eq hsum hreach
  refine ⟨hfinite, ?_⟩
  rw [hunits]
  exact_mod_cast rounded_le ha hbound

end Finite

end EditorTheme.Double
