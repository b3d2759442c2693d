import EditorTheme.Proofs.Double.Magnitude

/-!
The rounding of doubles and the rounding of units agree: what an operation on doubles shifts out of a number is the rest
of a division, which decides between the two neighbours.
-/

set_option autoImplicit false
set_option relaxedAutoImplicit false

namespace EditorTheme.Double

open Float.Model Float.Model.UnpackedFloat
open Decimal (nearestDiv)

section Shift

/-- The state after bits are shifted out: the quotient, whether the rest is half a step or more, and whether it lies off
both. -/
structure Shifted (m count : Nat) (em : ExtendedMantissa) : Prop where
  mantissa : em.mantissa = m / 2 ^ count
  roundBit : em.roundBit = true ↔ 2 ^ count ≤ 2 * (m % 2 ^ count)
  stickyBit : em.stickyBit = true ↔ 2 * (m % 2 ^ count) % 2 ^ count ≠ 0

theorem Shifted.start (m : Nat) : Shifted m 0 ⟨m, false, false⟩ := by
  refine ⟨(Nat.div_one m).symm, ?_, ?_⟩ <;> simp [Nat.mod_one]

theorem Shifted.next {m count : Nat} {em : ExtendedMantissa} (h : Shifted m count em) :
    Shifted m (count + 1) em.shiftRightOne := by
  have hpow : 2 ^ (count + 1) = 2 ^ count * 2 := pow_succ 2 count
  have hrest : m % 2 ^ (count + 1) = m % 2 ^ count + 2 ^ count * (m / 2 ^ count % 2) := by
    rw [hpow, Nat.mod_mul]
  have hlt : m % 2 ^ count < 2 ^ count := Nat.mod_lt m (Nat.two_pow_pos count)
  have hbit : m / 2 ^ count % 2 = 0 ∨ m / 2 ^ count % 2 = 1 := Nat.mod_two_eq_zero_or_one _
  have hhalf : (em.shiftRightOne.roundBit = true ↔ m / 2 ^ count % 2 = 1) := by
    show ((em.mantissa % 2 != 0) = true ↔ _)
    rw [h.mantissa, bne_iff_ne]
    omega
  have hoff : (em.shiftRightOne.stickyBit = true ↔ m % 2 ^ count ≠ 0) := by
    show ((em.roundBit || em.stickyBit) = true ↔ _)
    rw [Bool.or_eq_true, h.roundBit, h.stickyBit]
    constructor
    · rintro (hround | hsticky) hzero
      · omega
      · rw [hzero] at hsticky
        exact hsticky (Nat.zero_mod _)
    · intro hne
      rcases Nat.lt_or_ge (2 * (m % 2 ^ count)) (2 ^ count) with hbelow | habove
      · rw [Nat.mod_eq_of_lt hbelow]
        exact .inr (by omega)
      · exact .inl habove
  refine ⟨?_, ?_, ?_⟩
  · show em.mantissa / 2 = m / 2 ^ (count + 1)
    rw [h.mantissa, hpow, Nat.div_div_eq_div_mul]
  · rw [hhalf, hrest, hpow]
    rcases hbit with hbit | hbit <;> rw [hbit] <;> omega
  · have hdouble : 2 * (m % 2 ^ (count + 1)) % 2 ^ (count + 1) = 2 * (m % 2 ^ (count + 1) % 2 ^ count) := by
      rw [hpow, mul_comm (2 ^ count) 2, Nat.mul_mod_mul_left]
    have hlow : m % 2 ^ (count + 1) % 2 ^ count = m % 2 ^ count := by
      rw [hrest, Nat.add_mul_mod_self_left, Nat.mod_mod]
    rw [hoff, hdouble, hlow]
    omega

theorem Shifted.shift (m count : Nat) : Shifted m count ((⟨m, false, false⟩ : ExtendedMantissa) >>> count) := by
  induction count with
  | zero => exact .start m
  | succ count ih => exact ih.next

theorem Shifted.roundedMantissa {m count : Nat} {em : ExtendedMantissa} (h : Shifted m count em) :
    em.roundedMantissa = nearestDiv m (2 ^ count) := by
  obtain ⟨mantissa, roundBit, stickyBit⟩ := em
  obtain ⟨hmantissa, hround, hsticky⟩ := h
  have hlt : m % 2 ^ count < 2 ^ count := Nat.mod_lt m (Nat.two_pow_pos count)
  simp only at hmantissa hround hsticky
  unfold nearestDiv
  rw [← hmantissa]
  generalize m % 2 ^ count = rest at *
  generalize 2 ^ count = step at *
  have htie : step ≤ 2 * rest → 2 * rest % step = 2 * rest - step := by
    intro hle
    rw [Nat.mod_eq_sub_mod hle, Nat.mod_eq_of_lt (by omega)]
  cases roundBit with
  | false =>
    have hbelow : 2 * rest < step := by simpa using hround
    have hkept : (⟨mantissa, false, stickyBit⟩ : ExtendedMantissa).roundedMantissa = mantissa := by
      cases stickyBit <;> rfl
    simp only [hkept, if_pos hbelow]
  | true =>
    have hle : step ≤ 2 * rest := hround.mp rfl
    rw [htie hle] at hsticky
    cases stickyBit with
    | false =>
      have heq : 2 * rest = step := by
        by_contra hne
        exact Bool.false_ne_true (hsticky.mpr (by omega))
      show mantissa + mantissa % 2 = _
      simp only
      split_ifs <;> omega
    | true =>
      have habove : step < 2 * rest := by
        have hne := hsticky.mp rfl
        omega
      show mantissa + 1 = _
      simp only
      split_ifs <;> omega

end Shift

section Round

theorem nearestDiv_mul_right (num : Nat) {den c : Nat} (hc : 0 < c) :
    nearestDiv (num * c) (den * c) = nearestDiv num den := by
  have hquotient : num * c / (den * c) = num / den := Nat.mul_div_mul_right num den hc
  have hrest : num * c % (den * c) = num % den * c := Nat.mul_mod_mul_right c num den
  have hbelow : 2 * (num % den * c) < den * c ↔ 2 * (num % den) < den := by
    rw [← mul_assoc]
    exact Nat.mul_lt_mul_right hc
  have habove : den * c < 2 * (num % den * c) ↔ den < 2 * (num % den) := by
    rw [← mul_assoc]
    exact Nat.mul_lt_mul_right hc
  unfold nearestDiv
  simp only [hquotient, hrest, hbelow, habove]

theorem log2_mul_two_pow {m : Nat} (hm : m ≠ 0) (k : Nat) : (m * 2 ^ k).log2 = m.log2 + k := by
  have hlow : 2 ^ m.log2 ≤ m := Nat.log2_self_le hm
  have hhigh : m < 2 ^ (m.log2 + 1) := Nat.lt_log2_self
  have hpos : 0 < 2 ^ k := Nat.two_pow_pos k
  have hne : m * 2 ^ k ≠ 0 := Nat.mul_ne_zero hm hpos.ne'
  rw [Nat.log2_eq_iff hne, pow_add, pow_succ, pow_add, mul_right_comm, ← pow_succ]
  exact ⟨Nat.mul_le_mul_right _ hlow, Nat.mul_lt_mul_of_pos_right hhigh hpos⟩

theorem targetExponent_units {m : Nat} (hm : m ≠ 0) (k : Nat) :
    Format.binary64.targetExponent (totalExponent m ((k : Int) - 1074)) = ((m * 2 ^ k).log2 - 52 : Nat) - 1074 := by
  have hbits : (Format.binary64.mantissaBits : Int) = 53 := rfl
  have hmin : Format.binary64.minExponent = -1074 := rfl
  have hlog := log2_mul_two_pow hm k
  unfold Format.targetExponent totalExponent
  rw [hbits, hmin, hlog]
  omega

theorem shiftToTargetExponent_units {m : Nat} (hm : m ≠ 0) (k : Nat) :
    shiftToTargetExponent Format.binary64 m ((k : Int) - 1074) .exact =
      ((⟨m, false, false⟩ : ExtendedMantissa) >>> ((m * 2 ^ k).log2 - 52 - k),
        ((max k ((m * 2 ^ k).log2 - 52) : Nat) : Int) - 1074) := by
  have hcount : ((((m * 2 ^ k).log2 - 52 : Nat) : Int) - 1074 - ((k : Int) - 1074)).toNat =
      (m * 2 ^ k).log2 - 52 - k := by omega
  have hexponent : (k : Int) - 1074 + ((m * 2 ^ k).log2 - 52 - k : Nat) =
      ((max k ((m * 2 ^ k).log2 - 52) : Nat) : Int) - 1074 := by omega
  unfold shiftToTargetExponent shiftToExponent
  rw [targetExponent_units hm]
  dsimp only
  rw [hcount, hexponent]
  rfl

/-- A number of 53 bits stays as it is, unless its last bit lies below the units. -/
theorem shiftToTargetExponent_short {q : Nat} (hq : q ≠ 0) (hlt : q < 2 ^ 53) (shift : Nat) :
    shiftToTargetExponent Format.binary64 q ((shift : Int) - 1074) .exact =
      (⟨q, false, false⟩, (shift : Int) - 1074) := by
  have hlog : q.log2 < 53 := (Nat.log2_lt hq).mpr hlt
  have hscaled := log2_mul_two_pow hq shift
  have hcount : (q * 2 ^ shift).log2 - 52 - shift = 0 := by omega
  have hmax : max shift ((q * 2 ^ shift).log2 - 52) = shift := by omega
  rw [shiftToTargetExponent_units hq, hcount, hmax]
  rfl

theorem shiftToTargetExponent_carry (shift : Nat) :
    shiftToTargetExponent Format.binary64 (2 ^ 53) ((shift : Int) - 1074) .exact =
      (⟨2 ^ 52, false, false⟩, ((shift + 1 : Nat) : Int) - 1074) := by
  have hlog : (2 ^ 53).log2 = 53 := Nat.log2_two_pow
  have hscaled := log2_mul_two_pow (m := 2 ^ 53) (by decide) shift
  have hcount : (2 ^ 53 * 2 ^ shift).log2 - 52 - shift = 1 := by omega
  have hmax : max shift ((2 ^ 53 * 2 ^ shift).log2 - 52) = shift + 1 := by omega
  rw [shiftToTargetExponent_units (by decide), hcount, hmax]
  rfl

def ofParts (s : Sign) (m : Nat) (e : Int) : UnpackedFloat :=
  if h : m = 0 then .zero s else .finite s m e (Nat.pos_of_ne_zero h)

theorem ofParts_of_ne_zero (s : Sign) {m : Nat} (hm : m ≠ 0) (e : Int) :
    ofParts s m e = .finite s m e (Nat.pos_of_ne_zero hm) := dif_neg hm

def settled (s : Sign) (q : Nat) (e : Int) : UnpackedFloat :=
  ofParts s (shiftToTargetExponent Format.binary64 q e .exact).1.mantissa
    (shiftToTargetExponent Format.binary64 q e .exact).2

theorem toNat_packedInfinity (s : Sign) :
    (packedInfinity Format.binary64 s).toNat = s.toBitVec.toNat * 2 ^ 63 + 2047 * 2 ^ 52 := by
  have htop : (-1#11).toNat = 2047 := rfl
  have hnone : (0#52).toNat = 0 := rfl
  change (packComponents Format.binary64 s (-1#11) 0#52).toNat = _
  rw [toNat_packComponents, htop, hnone, Nat.add_zero]

/-- The bits of a number of 53 bits are its scale above its significand, up to those of infinity. -/
theorem toNat_pack_finite (s : Sign) {m shift : Nat} (hm : 0 < m) (hlt : m < 2 ^ 53) (hlow : shift ≠ 0 → 2 ^ 52 ≤ m) :
    (UnpackedFloat.pack Format.binary64 (.finite s m ((shift : Int) - 1074) hm)).toNat =
      s.toBitVec.toNat * 2 ^ 63 + min (shift * 2 ^ 52 + m) (2047 * 2 ^ 52) := by
  have hbits : 2 ^ Format.binary64.exponentBits = 2048 := rfl
  have hfull : m.log2 + 1 = Format.binary64.mantissaBits ↔ 2 ^ 52 ≤ m := by
    have hprecision : Format.binary64.mantissaBits = 53 := rfl
    have hlog : m.log2 < 52 ↔ m < 2 ^ 52 := Nat.log2_lt hm.ne'
    have hlog' : m.log2 < 53 := (Nat.log2_lt hm.ne').mpr hlt
    omega
  have hbiased : ((shift : Int) - 1074 + Format.binary64.exponentBias +
      Format.binary64.mantissaBitsWithoutImplicit).toNat = shift + 1 := by
    have hbias : (Format.binary64.exponentBias : Int) = 1023 := rfl
    have hfraction : (Format.binary64.mantissaBitsWithoutImplicit : Int) = 52 := rfl
    omega
  rw [pack_finite, hbiased, hbits]
  split_ifs with hroom hnormal
  · rw [toNat_packedInfinity]
    omega
  · have hnormal' := hfull.mp hnormal
    rw [toNat_packComponents, BitVec.toNat_ofNat, BitVec.toNat_ofNat]
    omega
  · have hsubnormal := mt hfull.mpr hnormal
    rw [toNat_packComponents, BitVec.toNat_ofNat, BitVec.toNat_ofNat]
    omega

/-- A rounded number has the bits of the nearest double. -/
theorem toNat_pack_settled (s : Sign) {q shift : Nat} (hq : q ≠ 0) (hle : q ≤ 2 ^ 53) (hlow : shift ≠ 0 → 2 ^ 52 ≤ q) :
    (UnpackedFloat.pack Format.binary64 (settled s q ((shift : Int) - 1074))).toNat =
      s.toBitVec.toNat * 2 ^ 63 + min (shift * 2 ^ 52 + q) (2047 * 2 ^ 52) := by
  unfold settled
  rcases lt_or_eq_of_le hle with hlt | rfl
  · rw [shiftToTargetExponent_short hq hlt]
    dsimp only
    rw [ofParts_of_ne_zero s hq, toNat_pack_finite s _ hlt hlow]
  · rw [shiftToTargetExponent_carry]
    dsimp only
    rw [ofParts_of_ne_zero s (by decide), toNat_pack_finite s (by decide) (by decide) (fun _ => le_rfl)]
    omega

theorem round_eq_settled (s : Sign) (m : Nat) (e : Int) :
    UnpackedFloat.round Format.binary64 s m e =
      let start := decreaseExponent m e (Format.binary64.targetExponent (totalExponent m e))
      let first := shiftToTargetExponent Format.binary64 start.1 start.2 .exact
      settled s first.1.roundedMantissa first.2 := rfl

theorem round_units (s : Sign) {m : Nat} (hm : m ≠ 0) (k : Nat) :
    UnpackedFloat.round Format.binary64 s m ((k : Int) - 1074) =
      settled s (nearestDiv (m * 2 ^ k) (2 ^ ((m * 2 ^ k).log2 - 52))) (((m * 2 ^ k).log2 - 52 : Nat) - 1074) := by
  rw [round_eq_settled, targetExponent_units hm]
  generalize hshift : (m * 2 ^ k).log2 - 52 = shift
  rcases Nat.le_total k shift with hle | hge
  · -- Bits are shifted out.
    have hstart : decreaseExponent m ((k : Int) - 1074) ((shift : Int) - 1074) = (m, (k : Int) - 1074) := by
      have hcount : ((k : Int) - 1074 - ((shift : Int) - 1074)).toNat = 0 := by omega
      unfold decreaseExponent
      dsimp only
      rw [hcount]
      exact Prod.ext rfl (sub_zero _)
    have hround : ((⟨m, false, false⟩ : ExtendedMantissa) >>> (shift - k)).roundedMantissa =
        nearestDiv (m * 2 ^ k) (2 ^ shift) := by
      have hsum : shift = shift - k + k := by omega
      rw [(Shifted.shift m (shift - k)).roundedMantissa, two_pow_eq_mul hsum,
        nearestDiv_mul_right m (Nat.two_pow_pos k)]
    rw [hstart]
    dsimp only
    rw [shiftToTargetExponent_units hm, hshift, max_eq_right hle]
    dsimp only
    rw [hround]
  · -- Bits are filled in, and nothing is lost.
    have hstart : decreaseExponent m ((k : Int) - 1074) ((shift : Int) - 1074) =
        (m * 2 ^ (k - shift), (shift : Int) - 1074) := by
      have hcount : ((k : Int) - 1074 - ((shift : Int) - 1074)).toNat = k - shift := by omega
      unfold decreaseExponent
      dsimp only
      rw [hcount, Nat.shiftLeft_eq]
      refine Prod.ext rfl ?_
      show (k : Int) - 1074 - (k - shift : Nat) = _
      omega
    have hscaled := mul_two_pow_eq m hge
    have hne : m * 2 ^ (k - shift) ≠ 0 := Nat.mul_ne_zero hm (Nat.two_pow_pos _).ne'
    rw [hstart]
    dsimp only
    rw [shiftToTargetExponent_units hne, ← hscaled, hshift, max_self, Nat.sub_self, hscaled,
      Decimal.nearestDiv_mul_self _ (Nat.two_pow_pos shift)]
    rfl

theorem nearestDiv_shift_ne_zero {n : Nat} (hn : n ≠ 0) : nearestDiv n (2 ^ (n.log2 - 52)) ≠ 0 := by
  by_cases hshift : n.log2 - 52 = 0
  · have hdiv := Decimal.div_le_nearestDiv n (2 ^ (n.log2 - 52))
    rw [hshift, pow_zero, Nat.div_one] at *
    omega
  · have hlow := significand_le_nearestDiv hshift
    omega

theorem roundedBits_pos {n : Nat} (hn : n ≠ 0) : 0 < roundedBits n := by
  have hpos := nearestDiv_shift_ne_zero hn
  unfold roundedBits
  omega

/-- Rounding a number that is no zero yields the nearest double, or an infinity where that is none. -/
theorem toNat_pack_round (s : Sign) {m : Nat} (hm : m ≠ 0) (k : Nat) :
    (UnpackedFloat.pack Format.binary64 (UnpackedFloat.round Format.binary64 s m ((k : Int) - 1074))).toNat =
      s.toBitVec.toNat * 2 ^ 63 + min (roundedBits (m * 2 ^ k)) (2047 * 2 ^ 52) := by
  have hne : m * 2 ^ k ≠ 0 := Nat.mul_ne_zero hm (Nat.two_pow_pos k).ne'
  rw [round_units s hm, toNat_pack_settled s (nearestDiv_shift_ne_zero hne) (nearestDiv_le_significand _)
    significand_le_nearestDiv, roundedBits]

end Round

end EditorTheme.Double
