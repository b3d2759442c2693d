import EditorTheme.Proofs.Double.Naturals

/-!
Finite doubles compare as their units do: of two doubles with full significands the one of the larger scale is larger. So
the ranges of the components of a color are ranges of units.
-/

set_option autoImplicit false
set_option relaxedAutoImplicit false

namespace EditorTheme.Double

open Float.Model Float.Model.UnpackedFloat

section Scales

variable {m₁ m₂ k₁ k₂ : Nat}

theorem Canonical.lt_of_scale_lt (h₁ : Canonical m₁ k₁) (h₂ : Canonical m₂ k₂) (h : k₁ < k₂) :
    m₁ * 2 ^ k₁ < m₂ * 2 ^ k₂ := by
  have hfull : 2 ^ 52 ≤ m₂ := h₂.full (by omega)
  have hpow : 2 ^ (k₁ + 1) ≤ 2 ^ k₂ := Nat.pow_le_pow_right two_pos h
  calc m₁ * 2 ^ k₁ < 2 ^ 53 * 2 ^ k₁ := Nat.mul_lt_mul_of_pos_right h₁.lt (Nat.two_pow_pos k₁)
    _ = 2 ^ 52 * 2 ^ (k₁ + 1) := by ring
    _ ≤ m₂ * 2 ^ k₂ := Nat.mul_le_mul hfull hpow

theorem Canonical.compare_eq (h₁ : Canonical m₁ k₁) (h₂ : Canonical m₂ k₂) :
    (compare ((k₁ : Int) - 1074) ((k₂ : Int) - 1074)).then (compare m₁ m₂) =
      compare ((m₁ * 2 ^ k₁ : Nat) : Int) ((m₂ * 2 ^ k₂ : Nat) : Int) := by
  rcases Nat.lt_trichotomy k₁ k₂ with hbelow | rfl | habove
  · have hscale : compare ((k₁ : Int) - 1074) ((k₂ : Int) - 1074) = .lt := compare_lt_iff_lt.mpr (by omega)
    have hvalue := h₁.lt_of_scale_lt h₂ hbelow
    rw [hscale, compare_lt_iff_lt.mpr (Int.ofNat_lt.mpr hvalue)]
    rfl
  · have hscale : compare ((k₁ : Int) - 1074) ((k₁ : Int) - 1074) = .eq := compare_eq_iff_eq.mpr rfl
    have hpos : 0 < 2 ^ k₁ := Nat.two_pow_pos k₁
    rw [hscale, Ordering.eq_then]
    rcases Nat.lt_trichotomy m₁ m₂ with hlt | rfl | hgt
    · rw [compare_lt_iff_lt.mpr hlt, compare_lt_iff_lt.mpr (Int.ofNat_lt.mpr (Nat.mul_lt_mul_of_pos_right hlt hpos))]
    · rw [compare_eq_iff_eq.mpr rfl, compare_eq_iff_eq.mpr rfl]
    · rw [compare_gt_iff_gt.mpr hgt, compare_gt_iff_gt.mpr (Int.ofNat_lt.mpr (Nat.mul_lt_mul_of_pos_right hgt hpos))]
  · have hscale : compare ((k₁ : Int) - 1074) ((k₂ : Int) - 1074) = .gt := compare_gt_iff_gt.mpr (by omega)
    have hvalue := h₂.lt_of_scale_lt h₁ habove
    rw [hscale, compare_gt_iff_gt.mpr (Int.ofNat_lt.mpr hvalue)]
    rfl

end Scales

section Order

variable {x y : Float}

theorem compare_neg_neg (a b : Int) : compare (-a) (-b) = compare b a := by
  rcases lt_trichotomy a b with hlt | rfl | hgt
  · rw [compare_gt_iff_gt.mpr hlt, compare_gt_iff_gt.mpr (neg_lt_neg hlt)]
  · rw [compare_eq_iff_eq.mpr rfl, compare_eq_iff_eq.mpr rfl]
  · rw [compare_lt_iff_lt.mpr hgt, compare_lt_iff_lt.mpr (neg_lt_neg hgt)]

theorem compare_units (hx : x.isFinite = true) (hy : y.isFinite = true) :
    x.toModel.unpack.compare y.toModel.unpack = some (compare (units x) (units y)) := by
  cases model_of_isFinite hx with
  | zero hxunits hxunpack =>
    cases model_of_isFinite hy with
    | zero hyunits hyunpack =>
      rw [hxunits, hyunits, hxunpack, hyunpack]
      rfl
    | @finite s m k hm hyunits hyunpack =>
      have hpos : 0 < m * 2 ^ k := Nat.mul_pos hm (Nat.two_pow_pos k)
      rw [hxunits, hyunits, hxunpack, hyunpack]
      cases s with
      | negative => exact congrArg some (compare_gt_iff_gt.mpr (neg_lt_zero.mpr (Int.natCast_pos.mpr hpos))).symm
      | positive => exact congrArg some (compare_lt_iff_lt.mpr (Int.natCast_pos.mpr hpos)).symm
  | @finite s m k hm hxunits hxunpack hxcanonical =>
    have hpos : 0 < m * 2 ^ k := Nat.mul_pos hm (Nat.two_pow_pos k)
    cases model_of_isFinite hy with
    | zero hyunits hyunpack =>
      rw [hxunits, hyunits, hxunpack, hyunpack]
      cases s with
      | negative => exact congrArg some (compare_lt_iff_lt.mpr (neg_lt_zero.mpr (Int.natCast_pos.mpr hpos))).symm
      | positive => exact congrArg some (compare_gt_iff_gt.mpr (Int.natCast_pos.mpr hpos)).symm
    | @finite t n l hn hyunits hyunpack hycanonical =>
      have hpos' : 0 < n * 2 ^ l := Nat.mul_pos hn (Nat.two_pow_pos l)
      have hscaled := hxcanonical.compare_eq hycanonical
      have hsigns : ∀ {a : Nat}, 0 < a → ∀ b : Nat, -(a : Int) < b := fun ha b => by omega
      rw [hxunits, hyunits, hxunpack, hyunpack]
      cases s with
      | negative =>
        cases t with
        | negative =>
          refine congrArg some ?_
          rw [hscaled, ← Std.OrientedCmp.eq_swap]
          exact (compare_neg_neg _ _).symm
        | positive => exact congrArg some (compare_lt_iff_lt.mpr (hsigns hpos _)).symm
      | positive =>
        cases t with
        | negative => exact congrArg some (compare_gt_iff_gt.mpr (hsigns hpos' _)).symm
        | positive => exact congrArg some hscaled

theorem lt_iff_units (hx : x.isFinite = true) (hy : y.isFinite = true) : x < y ↔ units x < units y := by
  rw [lt_iff_compare, compare_units hx hy, Option.some_inj, compare_lt_iff_lt]

theorem le_iff_units (hx : x.isFinite = true) (hy : y.isFinite = true) : x ≤ y ↔ units x ≤ units y := by
  simp only [le_iff_compare, compare_units hx hy, Option.some_inj, exists_eq_left', Int.isLE_compare]

theorem compare_infinity {f : UnpackedFloat} (h : f.isFinite = true) :
    f.compare (.infinity .positive) = some .lt ∧ f.compare (.infinity .negative) = some .gt := by
  cases f with
  | notANumber => cases h
  | infinity s => cases h
  | zero s => exact ⟨rfl, rfl⟩
  | finite s m e hm => cases s <;> exact ⟨rfl, rfl⟩

theorem isFinite_of_mem {low high : Float} (hlow : low.isFinite = true) (hhigh : high.isFinite = true)
    (h : low ≤ x ∧ x ≤ high) : x.isFinite = true := by
  obtain ⟨below, hbelow, hlowle⟩ := le_iff_compare.mp h.1
  obtain ⟨above, habove, hlehigh⟩ := le_iff_compare.mp h.2
  change x.toModel.unpack.isFinite = true
  rw [compare_swap high.toModel.unpack] at habove
  cases hunpack : x.toModel.unpack with
  | notANumber =>
    rw [hunpack, (compare_eq_none_iff _ _).mpr (Or.inr rfl)] at hbelow
    cases hbelow
  | infinity s =>
    rw [hunpack] at hbelow habove
    cases s with
    | negative =>
      obtain rfl := Option.some.inj ((compare_infinity hlow).2.symm.trans hbelow)
      cases hlowle
    | positive =>
      rw [(compare_infinity hhigh).1] at habove
      obtain rfl := Option.some.inj habove
      cases hlehigh
  | zero s => rfl
  | finite s m e hm => rfl

end Order

section Ranges

variable {x : Float}

theorem finite_bounds : (0 : Float).isFinite = true ∧ (1 : Float).isFinite = true ∧ (360 : Float).isFinite = true :=
  ⟨(units_ofNat (d := 0) (by decide)).1, (units_ofNat (d := 1) (by decide)).1, (units_ofNat (d := 360) (by decide)).1⟩

theorem units_bounds : units 0 = 0 ∧ units 1 = (unitsPerOne : Int) ∧ units 360 = ((360 * unitsPerOne : Nat) : Int) := by
  have hzero := (units_ofNat (d := 0) (by decide)).2
  have hone := (units_ofNat (d := 1) (by decide)).2
  rw [Nat.zero_mul] at hzero
  rw [Nat.one_mul] at hone
  exact ⟨hzero, hone, (units_ofNat (d := 360) (by decide)).2⟩

theorem mem_unit_iff : 0 ≤ x ∧ x ≤ 1 ↔ x.isFinite = true ∧ 0 ≤ units x ∧ units x ≤ (unitsPerOne : Int) := by
  obtain ⟨hzero, hone, -⟩ := finite_bounds
  obtain ⟨hzerounits, honeunits, -⟩ := units_bounds
  constructor
  · intro h
    have hx := isFinite_of_mem hzero hone h
    rw [le_iff_units hzero hx, le_iff_units hx hone, hzerounits, honeunits] at h
    exact ⟨hx, h⟩
  · rintro ⟨hx, h⟩
    rwa [le_iff_units hzero hx, le_iff_units hx hone, hzerounits, honeunits]

theorem mem_turn_iff : 0 ≤ x ∧ x < 360 ↔
    x.isFinite = true ∧ 0 ≤ units x ∧ units x < ((360 * unitsPerOne : Nat) : Int) := by
  obtain ⟨hzero, -, hturn⟩ := finite_bounds
  obtain ⟨hzerounits, -, hturnunits⟩ := units_bounds
  constructor
  · intro h
    have hx := isFinite_of_mem hzero hturn ⟨h.1, le_of_lt h.2⟩
    rw [le_iff_units hzero hx, lt_iff_units hx hturn, hzerounits, hturnunits] at h
    exact ⟨hx, h⟩
  · rintro ⟨hx, h⟩
    rwa [le_iff_units hzero hx, lt_iff_units hx hturn, hzerounits, hturnunits]

theorem magnitude_of_nonneg (h : 0 ≤ units x) : (magnitude x : Int) = units x := by
  unfold units at h ⊢
  split_ifs at h ⊢
  · omega
  · rfl

end Ranges

end EditorTheme.Double
