import EditorTheme.Color.Conversion
import EditorTheme.Rational
import Mathlib.Algebra.Order.Floor.Ring
import Mathlib.Data.Rat.Floor
import Mathlib.Tactic.FieldSimp
import Mathlib.Tactic.Linarith

/-!
Exact scalars: the color formulas over the numbers of an ordered field, where no operation rounds. A remainder by 1 is
a fractional part, a clamped number is its projection to the unit interval, and the channel curve is linear between the
multiples of a sixth of a turn. The rationals are exact.
-/

set_option autoImplicit false
set_option relaxedAutoImplicit false

namespace EditorTheme

namespace OrderedField

section Operations

variable {α : Type} [Field α] [LinearOrder α] [FloorRing α]

def nearestInt (x : α) : Int :=
  if Int.fract x < 1 / 2 then ⌊x⌋
  else if 1 / 2 < Int.fract x then ⌊x⌋ + 1
  else if ⌊x⌋ % 2 = 0 then ⌊x⌋
  else ⌊x⌋ + 1

@[reducible] def numeral : (n : Nat) → OfNat α n
  | 0 => inferInstance
  | 1 => inferInstance
  | _ + 2 => inferInstance

omit [LinearOrder α] [FloorRing α] in
theorem ofNat_numeral (n : Nat) : (numeral n : OfNat α n).ofNat = (n : α) := by
  match n with
  | 0 => exact Nat.cast_zero.symm
  | 1 => exact Nat.cast_one.symm
  | n + 2 => rfl

@[reducible] def scalar (α : Type) [Field α] [LinearOrder α] [FloorRing α] : Scalar α where
  numeral := numeral
  decidableLt := inferInstance
  decidableLe := inferInstance
  beq x y := decide (x = y)
  remainder x y := x - y * (⌊x / y⌋ : α)
  nearestInt := nearestInt
  isFinite _ := true
  ofInt? n := some (n : α)
  ofDecimal digits exponent := (Rational.ofDecimal digits exponent : α)
  ofDouble x := (Rational.ofDouble x : α)

end Operations

section Equations

variable {α : Type} [Field α] [LinearOrder α] [FloorRing α]

theorem larger_eq_max (x y : α) : @Scalar.larger α (scalar α) x y = max x y := by
  change (if x < y then y else x) = max x y
  split_ifs with h
  · exact (max_eq_right h.le).symm
  · exact (max_eq_left (not_lt.mp h)).symm

theorem smaller_eq_min (x y : α) : @Scalar.smaller α (scalar α) x y = min x y := by
  change (if y < x then y else x) = min x y
  split_ifs with h
  · exact (min_eq_right h.le).symm
  · exact (min_eq_left (not_lt.mp h)).symm

theorem remainder_one (x : α) : @Scalar.remainder α (scalar α) x 1 = Int.fract x := by
  change x - 1 * (⌊x / 1⌋ : α) = x - ⌊x⌋
  rw [div_one, one_mul]

theorem clamp_eq (x : α) : @clamp α (scalar α) x = max 0 (min 1 x) := by
  change @Scalar.larger α (scalar α) 0 (@Scalar.smaller α (scalar α) 1 x) = max 0 (min 1 x)
  rw [larger_eq_max, smaller_eq_min]

theorem channelAt_eq [IsStrictOrderedRing α] (low high turns : α) : @Color.channelAt α (scalar α) low high turns =
    if Int.fract turns < 1 / 6 then low + (high - low) * Int.fract turns * 6
    else if Int.fract turns < 1 / 2 then high
    else if Int.fract turns < 2 / 3 then low + (high - low) * (2 / 3 - Int.fract turns) * 6
    else low := by
  have hhalf : (0.5 : α) = 1 / 2 := by norm_num
  rw [← remainder_one turns, ← hhalf]
  rfl

theorem ofInt_eq (n : Int) : @Scalar.ofInt α (scalar α) n = n := by
  change (if n < 0 then -(numeral n.natAbs : OfNat α n.natAbs).ofNat else (numeral n.natAbs : OfNat α n.natAbs).ofNat) = n
  rw [ofNat_numeral]
  split_ifs with h
  · rw [Nat.cast_natAbs, abs_of_neg h, Int.cast_neg, neg_neg]
  · rw [Nat.cast_natAbs, abs_of_nonneg (not_lt.mp h)]

end Equations

section Rounding

theorem nearestInt_cases {α : Type} [Field α] [LinearOrder α] [IsStrictOrderedRing α] [FloorRing α] (x : α) :
    nearestInt x = ⌊x⌋ ∨ nearestInt x = ⌊x⌋ + 1 ∧ 0 < Int.fract x := by
  unfold nearestInt
  split_ifs with hless
  · exact .inl rfl
  · exact .inr ⟨rfl, by linarith⟩
  · exact .inl rfl
  · exact .inr ⟨rfl, by linarith⟩

theorem nearestInt_intCast {α : Type} [Field α] [LinearOrder α] [IsStrictOrderedRing α] [FloorRing α] (n : Int) :
    nearestInt (n : α) = n := by
  have hwhole : Int.fract (n : α) < 1 / 2 := by
    rw [Int.fract_intCast]
    exact one_half_pos
  rw [nearestInt, if_pos hwhole, Int.floor_intCast]

theorem nearestInt_div (num : Int) {den : Nat} (h : 0 < den) : nearestInt ((num : Rat) / den) =
    if 2 * (num % den) < den then num / den
    else if (den : Int) < 2 * (num % den) then num / den + 1
    else if num / den % 2 = 0 then num / den
    else num / den + 1 := by
  have hpositive : (0 : Rat) < den := by exact_mod_cast h
  have hfloor : ⌊(num : Rat) / den⌋ = num / den := Rat.floor_intCast_div_natCast num den
  have hrest : Int.fract ((num : Rat) / den) = ((num % den : Int) : Rat) / den := by
    have hsum : ((num / den : Int) : Rat) * den + ((num % den : Int) : Rat) = num := by
      exact_mod_cast Int.ediv_mul_add_emod num den
    rw [Int.fract, hfloor, eq_div_iff hpositive.ne', sub_mul, div_mul_cancel₀ _ hpositive.ne']
    linarith
  have hless : Int.fract ((num : Rat) / den) < 1 / 2 ↔ 2 * (num % den) < den := by
    rw [hrest, div_lt_div_iff₀ hpositive two_pos, one_mul, mul_comm]
    exact_mod_cast Iff.rfl
  have hmore : 1 / 2 < Int.fract ((num : Rat) / den) ↔ (den : Int) < 2 * (num % den) := by
    rw [hrest, div_lt_div_iff₀ two_pos hpositive, one_mul, mul_comm]
    exact_mod_cast Iff.rfl
  simp only [nearestInt, hfloor, hless, hmore]

/-- The quotient of a negative number lies as far below zero as that of its magnitude lies above it, and one further if
there is a rest. -/
theorem neg_ediv_emod (n : Nat) {den : Nat} (h : 0 < den) :
    -(n : Int) / den = (if n % den = 0 then -((n / den : Nat) : Int) else -((n / den : Nat) : Int) - 1) ∧
      -(n : Int) % den = if n % den = 0 then 0 else (den : Int) - (n % den : Nat) := by
  have hdvd : (den : Int) ∣ n ↔ n % den = 0 := by
    rw [Int.natCast_dvd_natCast, Nat.dvd_iff_mod_eq_zero]
  rw [Int.neg_ediv, Int.neg_emod, Int.natAbs_natCast, Int.sign_eq_one_of_pos (by omega), Int.natCast_ediv,
    Int.natCast_emod]
  simp only [hdvd]
  split_ifs <;> simp

/-- The magnitude of a rational is rounded to the magnitude of its nearest integer, since halves go to even integers. -/
theorem nearestInt_rational (x : Rat) : Rational.nearestInt x = nearestInt x := by
  have hden : 0 < x.den := x.den_pos
  have hrounded := nearestInt_div x.num hden
  rw [Rat.num_div_den] at hrounded
  rw [hrounded]
  unfold Rational.nearestInt Decimal.nearestDiv
  simp only
  rcases lt_or_ge x.num 0 with hnegative | hnonneg
  · obtain ⟨n, hn⟩ : ∃ n : Nat, x.num = -(n : Int) := Int.exists_eq_neg_ofNat hnegative.le
    obtain ⟨hquotient, hrest⟩ := neg_ediv_emod n hden
    have hless : n % x.den < x.den := Nat.mod_lt n hden
    rw [if_pos hnegative, hn, Int.natAbs_neg, Int.natAbs_natCast, hquotient, hrest]
    split_ifs <;> omega
  · obtain ⟨n, hn⟩ : ∃ n : Nat, x.num = (n : Int) := Int.eq_ofNat_of_zero_le hnonneg
    rw [if_neg (not_lt.mpr hnonneg), hn, Int.natAbs_natCast]
    norm_cast

end Rounding

end OrderedField

/-- Scalars that are the numbers of an ordered field. -/
class ExactScalar (α : Type) [scalar : Scalar α] : Prop where
  exists_field : ∃ (_ : Field α) (_ : LinearOrder α) (_ : IsStrictOrderedRing α) (_ : FloorRing α),
    scalar = OrderedField.scalar α

/-- The operations of the rationals are those of their field; only numerals and rounding are written otherwise. -/
theorem Rational.scalar_eq : instScalarRat = OrderedField.scalar Rat := by
  have hnumeral : (fun n => inferInstance : (n : Nat) → OfNat Rat n) = OrderedField.numeral := by
    funext n
    match n with
    | 0 => rfl
    | 1 => rfl
    | n + 2 => rfl
  have hrounding : (nearestInt : Rat → Int) = OrderedField.nearestInt := funext OrderedField.nearestInt_rational
  unfold instScalarRat OrderedField.scalar
  rw [hnumeral, hrounding]
  rfl

instance : ExactScalar Rat := ⟨inferInstance, inferInstance, inferInstance, inferInstance, Rational.scalar_eq⟩

end EditorTheme
