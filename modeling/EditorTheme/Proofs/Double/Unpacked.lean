import EditorTheme.Double
import Mathlib.Tactic.Linarith

/-!
The fields of a double's bits and the number that they stand for. The bits of a double that is no NaN are those that it
was made from.
-/

set_option autoImplicit false
set_option relaxedAutoImplicit false

namespace EditorTheme.Double

open Float.Model Float.Model.UnpackedFloat

section Fields

variable (b : BitVec Format.binary64.numBits)

theorem toNat_unpackMantissa : (unpackMantissa b).toNat = b.toNat % 2 ^ 52 := by
  simp [unpackMantissa]

theorem toNat_unpackExponent : (unpackExponent b).toNat = b.toNat / 2 ^ 52 % 2 ^ 11 := by
  simp [unpackExponent, Nat.shiftRight_eq_div_pow]

theorem toNat_unpackSign : (unpackSign b).toNat = b.toNat / 2 ^ 63 := by
  have hlt : b.toNat < 2 ^ 64 := b.isLt
  change (b.extractLsb 63 63).toNat = _
  rw [BitVec.extractLsb_toNat, Nat.shiftRight_eq_div_pow]
  omega

theorem toNat_packComponents (s : Sign) (e : BitVec 11) (m : BitVec 52) :
    (packComponents Format.binary64 s e m).toNat = s.toBitVec.toNat * 2 ^ 63 + e.toNat * 2 ^ 52 + m.toNat := by
  have hm : m.toNat < 2 ^ 52 := m.isLt
  have he : e.toNat < 2 ^ 11 := e.isLt
  change ((s.toBitVec ++ e : BitVec (1 + 11)) ++ m : BitVec (1 + 11 + 52)).toNat = _
  rw [BitVec.toNat_append, BitVec.toNat_append, ← Nat.shiftLeft_add_eq_or_of_lt hm,
    ← Nat.shiftLeft_add_eq_or_of_lt he, Nat.shiftLeft_eq, Nat.shiftLeft_eq]
  omega

theorem toNat_one_append (m : BitVec 52) : (1#1 ++ m).toNat = 2 ^ 52 + m.toNat := by
  have hm : m.toNat < 2 ^ 52 := m.isLt
  rw [BitVec.toNat_append, ← Nat.shiftLeft_add_eq_or_of_lt hm, Nat.shiftLeft_eq]
  rfl

end Fields

def ofFields (s : Sign) (e m : Nat) : UnpackedFloat :=
  if e = 2047 then (if m = 0 then .infinity s else .notANumber)
  else if e = 0 then (if h : m = 0 then .zero s else .finite s m (-1074) (Nat.pos_of_ne_zero h))
  else .finite s (2 ^ 52 + m) (e - 1075) (Nat.add_pos_left (by decide) m)

theorem ofFields_of_nan (s : Sign) {m : Nat} (hm : m ≠ 0) : ofFields s 2047 m = .notANumber := by
  rw [ofFields, if_pos rfl, if_neg hm]

theorem ofFields_of_not_zero (s : Sign) {m : Nat} (hm : m ≠ 0) :
    ofFields s 0 m = .finite s m (-1074) (Nat.pos_of_ne_zero hm) := by
  rw [ofFields, if_neg (by decide), if_pos rfl, dif_neg hm]

theorem ofFields_of_inner (s : Sign) {e : Nat} (m : Nat) (htop : e ≠ 2047) (hbottom : e ≠ 0) :
    ofFields s e m = .finite s (2 ^ 52 + m) (e - 1075) (Nat.add_pos_left (by decide) m) := by
  rw [ofFields, if_neg htop, if_neg hbottom]

theorem unpack_eq_ofFields (b : BitVec Format.binary64.numBits) :
    UnpackedFloat.unpack Format.binary64 b =
      ofFields (Sign.ofBitVec (unpackSign b)) (b.toNat / 2 ^ 52 % 2 ^ 11) (b.toNat % 2 ^ 52) := by
  have hexponent := toNat_unpackExponent b
  have hmantissa := toNat_unpackMantissa b
  have htop : unpackExponent b = -1#11 ↔ b.toNat / 2 ^ 52 % 2 ^ 11 = 2047 := by
    rw [← BitVec.toNat_inj, hexponent]
    rfl
  have hbottom : unpackExponent b = 0#11 ↔ b.toNat / 2 ^ 52 % 2 ^ 11 = 0 := by
    rw [← BitVec.toNat_inj, hexponent]
    rfl
  have hnone : unpackMantissa b = 0#52 ↔ b.toNat % 2 ^ 52 = 0 := by
    rw [← BitVec.toNat_inj, hmantissa]
    rfl
  have hbias : ((Format.binary64.exponentBias : Int) + (52 : Nat)) = 1075 := rfl
  unfold UnpackedFloat.unpack ofFields
  dsimp only
  by_cases hends : b.toNat / 2 ^ 52 % 2 ^ 11 = 2047
  · rw [if_pos (htop.mpr hends), if_pos hends]
    by_cases hzero : b.toNat % 2 ^ 52 = 0
    · rw [if_pos (hnone.mpr hzero), if_pos hzero]
    · rw [if_neg (mt hnone.mp hzero), if_neg hzero]
  rw [if_neg (mt htop.mp hends), if_neg hends]
  by_cases hstarts : b.toNat / 2 ^ 52 % 2 ^ 11 = 0
  · rw [if_pos (hbottom.mpr hstarts), if_pos hstarts]
    by_cases hzero : b.toNat % 2 ^ 52 = 0
    · rw [dif_pos (hnone.mpr hzero), dif_pos hzero]
    · rw [dif_neg (mt hnone.mp hzero), dif_neg hzero, UnpackedFloat.finite.injEq]
      exact ⟨rfl, hmantissa, by omega⟩
  · rw [if_neg (mt hbottom.mp hstarts), if_neg hstarts, UnpackedFloat.finite.injEq, toNat_one_append]
    exact ⟨rfl, by omega, by omega⟩

theorem pack_finite (s : Sign) {m : Nat} (e : Int) (hm : 0 < m) :
    UnpackedFloat.pack Format.binary64 (.finite s m e hm) =
      if 2 ^ Format.binary64.exponentBits ≤
          (e + Format.binary64.exponentBias + Format.binary64.mantissaBitsWithoutImplicit).toNat + 1 then
        packedInfinity Format.binary64 s
      else if m.log2 + 1 = Format.binary64.mantissaBits then
        packComponents Format.binary64 s
          (BitVec.ofNat _ (e + Format.binary64.exponentBias + Format.binary64.mantissaBitsWithoutImplicit).toNat)
          (BitVec.ofNat _ m)
      else packComponents Format.binary64 s 0#_ (BitVec.ofNat _ m) := rfl

theorem toNat_pack_ofFields (s : Sign) {e m : Nat} (hm : m < 2 ^ 52) (hnumber : e * 2 ^ 52 + m ≤ 2047 * 2 ^ 52) :
    (UnpackedFloat.pack Format.binary64 (ofFields s e m)).toNat = s.toBitVec.toNat * 2 ^ 63 + e * 2 ^ 52 + m := by
  by_cases htop : e = 2047
  · obtain rfl : m = 0 := by omega
    rw [htop]
    exact toNat_packComponents s _ _
  by_cases hbottom : e = 0
  · rw [hbottom]
    by_cases hzero : m = 0
    · rw [hzero]
      exact toNat_packComponents s _ _
    -- Below the least normal double the leading bit is missing.
    have hshort : m.log2 + 1 ≠ Format.binary64.mantissaBits := by
      have hlog : m.log2 < 52 := (Nat.log2_lt hzero).mpr hm
      have hbits : Format.binary64.mantissaBits = 53 := rfl
      omega
    have hroom : ¬ 2 ^ Format.binary64.exponentBits ≤
        ((-1074 : Int) + Format.binary64.exponentBias + Format.binary64.mantissaBitsWithoutImplicit).toNat + 1 := by
      decide
    rw [ofFields_of_not_zero s hzero, pack_finite, if_neg hroom, if_neg hshort, toNat_packComponents,
      BitVec.toNat_ofNat, BitVec.toNat_ofNat]
    omega
  · have hfull : (2 ^ 52 + m).log2 + 1 = Format.binary64.mantissaBits := by
      have hlog : (2 ^ 52 + m).log2 = 52 := (Nat.log2_eq_iff (by omega)).mpr ⟨by omega, by omega⟩
      rw [hlog]
      rfl
    have hbiased : ((e : Int) - 1075 + Format.binary64.exponentBias +
        Format.binary64.mantissaBitsWithoutImplicit).toNat = e := by
      have hbias : (Format.binary64.exponentBias : Int) = 1023 := rfl
      have hbits : (Format.binary64.mantissaBitsWithoutImplicit : Int) = 52 := rfl
      omega
    have hroom : ¬ 2 ^ Format.binary64.exponentBits ≤ e + 1 := by
      have hbits : 2 ^ Format.binary64.exponentBits = 2048 := rfl
      omega
    rw [ofFields_of_inner s m htop hbottom, pack_finite, hbiased, if_neg hroom, if_pos hfull, toNat_packComponents,
      BitVec.toNat_ofNat, BitVec.toNat_ofNat]
    omega

theorem ofBitVec_of_toNat {b : BitVec 1} {s : Sign} (h : b.toNat = s.toBitVec.toNat) : Sign.ofBitVec b = s := by
  obtain rfl := BitVec.toNat_inj.mp h
  cases s <;> rfl

theorem toNat_sign_le (s : Sign) : s.toBitVec.toNat ≤ 1 := Nat.le_of_lt_succ s.toBitVec.isLt

theorem unpack_of_toNat {b : BitVec Format.binary64.numBits} (s : Sign) {e m : Nat} (he : e ≤ 2047) (hm : m < 2 ^ 52)
    (hb : b.toNat = s.toBitVec.toNat * 2 ^ 63 + e * 2 ^ 52 + m) :
    UnpackedFloat.unpack Format.binary64 b = ofFields s e m := by
  have hle : s.toBitVec.toNat ≤ 1 := toNat_sign_le s
  have hsign : Sign.ofBitVec (unpackSign b) = s := by
    apply ofBitVec_of_toNat
    rw [toNat_unpackSign]
    omega
  have hexponent : b.toNat / 2 ^ 52 % 2 ^ 11 = e := by omega
  have hmantissa : b.toNat % 2 ^ 52 = m := by omega
  rw [unpack_eq_ofFields, hsign, hexponent, hmantissa]

/-- A double has fields: its bits are theirs, and it is their number. -/
structure HasFields (x : Float) (s : Sign) (e m : Nat) : Prop where
  exponent_le : e ≤ 2047
  mantissa_lt : m < 2 ^ 52
  toNat_toBits : x.toBits.toNat = s.toBitVec.toNat * 2 ^ 63 + e * 2 ^ 52 + m

theorem HasFields.unpack {x : Float} {s : Sign} {e m : Nat} (h : HasFields x s e m) :
    x.toModel.unpack = ofFields s e m :=
  unpack_of_toNat s h.exponent_le h.mantissa_lt h.toNat_toBits

theorem exists_hasFields (x : Float) : ∃ s e m, HasFields x s e m := by
  have hlt : x.toBits.toNat < 2 ^ 64 := x.toBits.toBitVec.isLt
  have hpositive : Sign.positive.toBitVec.toNat = 0 := rfl
  have hnegative : Sign.negative.toBitVec.toNat = 1 := rfl
  by_cases hsign : x.toBits.toNat < 2 ^ 63
  · exact ⟨.positive, x.toBits.toNat / 2 ^ 52, x.toBits.toNat % 2 ^ 52, by omega, by omega, by omega⟩
  · exact ⟨.negative, x.toBits.toNat / 2 ^ 52 - 2 ^ 11, x.toBits.toNat % 2 ^ 52, by omega, by omega, by omega⟩

section Numbers

variable {x : Float} {s : Sign} {e m : Nat}

theorem HasFields.exponentField (h : HasFields x s e m) : exponentField x = e := by
  obtain ⟨he, hm, hbits⟩ := h
  have hle : s.toBitVec.toNat ≤ 1 := toNat_sign_le s
  have hfield : Double.exponentField x = x.toBits.toNat % 2 ^ 63 / 2 ^ 52 := rfl
  omega

theorem HasFields.fractionField (h : HasFields x s e m) : fractionField x = m := by
  obtain ⟨he, hm, hbits⟩ := h
  have hfield : Double.fractionField x = x.toBits.toNat % 2 ^ 52 := rfl
  omega

theorem HasFields.isNegative (h : HasFields x s e m) : isNegative x = true ↔ s = .negative := by
  obtain ⟨he, hm, hbits⟩ := h
  have hpositive : Sign.positive.toBitVec.toNat = 0 := rfl
  have hnegative : Sign.negative.toBitVec.toNat = 1 := rfl
  change decide (2 ^ 63 ≤ x.toBits.toNat) = true ↔ _
  rw [decide_eq_true_iff]
  cases s with
  | negative => exact iff_of_true (by omega) rfl
  | positive => exact iff_of_false (by omega) Sign.noConfusion

theorem HasFields.isFinite (h : HasFields x s e m) : x.isFinite = true ↔ e ≠ 2047 := by
  have hunpack : x.isFinite = (ofFields s e m).isFinite := congrArg UnpackedFloat.isFinite h.unpack
  rw [hunpack]
  by_cases htop : e = 2047
  · refine iff_of_false ?_ (not_not.mpr htop)
    rw [htop]
    by_cases hzero : m = 0
    · rw [hzero]
      exact Bool.false_ne_true
    · rw [ofFields_of_nan s hzero]
      exact Bool.false_ne_true
  · refine iff_of_true ?_ htop
    by_cases hbottom : e = 0
    · rw [hbottom]
      by_cases hzero : m = 0
      · rw [hzero]
        rfl
      · rw [ofFields_of_not_zero s hzero]
        rfl
    · rw [ofFields_of_inner s m htop hbottom]
      rfl

theorem hasFields_ofBits {u : UInt64} (hm : m < 2 ^ 52) (hnumber : e * 2 ^ 52 + m ≤ 2047 * 2 ^ 52)
    (hu : u.toNat = s.toBitVec.toNat * 2 ^ 63 + e * 2 ^ 52 + m) : HasFields (Float.ofBits u) s e m := by
  have hunpack : UnpackedFloat.unpack Format.binary64 u.toBitVec = ofFields s e m :=
    unpack_of_toNat s (by omega) hm hu
  refine ⟨by omega, hm, ?_⟩
  change (UnpackedFloat.pack Format.binary64 (UnpackedFloat.unpack Format.binary64 u.toBitVec)).toNat = _
  rw [hunpack, toNat_pack_ofFields s hm hnumber]

theorem neg_ofFields (s : Sign) (e m : Nat) : (ofFields s e m).neg = ofFields (-s) e m := by
  by_cases htop : e = 2047
  · rw [htop]
    by_cases hzero : m = 0
    · rw [hzero]
      rfl
    · rw [ofFields_of_nan s hzero, ofFields_of_nan (-s) hzero]
      rfl
  by_cases hbottom : e = 0
  · rw [hbottom]
    by_cases hzero : m = 0
    · rw [hzero]
      rfl
    · rw [ofFields_of_not_zero s hzero, ofFields_of_not_zero (-s) hzero]
      rfl
  · rw [ofFields_of_inner s m htop hbottom, ofFields_of_inner (-s) m htop hbottom]
    rfl

theorem HasFields.neg (h : HasFields x s e m) (hnumber : e * 2 ^ 52 + m ≤ 2047 * 2 ^ 52) :
    HasFields (-x) (-s) e m := by
  refine ⟨h.exponent_le, h.mantissa_lt, ?_⟩
  change (UnpackedFloat.pack Format.binary64 x.toModel.unpack.neg).toNat = _
  rw [h.unpack, neg_ofFields, toNat_pack_ofFields (-s) h.mantissa_lt hnumber]

end Numbers

end EditorTheme.Double
