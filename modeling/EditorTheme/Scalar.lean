/-!
The numbers that color formulas are written over. Every formula of the library uses only the operations
of `Scalar`, so one text of a formula is read twice: over doubles, where it runs, and over the rationals,
where it is exact.
-/

set_option autoImplicit false
set_option relaxedAutoImplicit false

namespace EditorTheme

/-- Numbers with the operations that color formulas use. Comparison need not be total, and an operation
may leave the finite numbers. -/
class Scalar (α : Type) extends Add α, Sub α, Mul α, Div α, Neg α, LT α, LE α, BEq α, OfScientific α where
  numeral : (n : Nat) → OfNat α n
  decidableLt : (x y : α) → Decidable (x < y)
  decidableLe : (x y : α) → Decidable (x ≤ y)
  /-- What is left of the first number after whole multiples of the second, with the second's sign. -/
  remainder : α → α → α
  /-- The nearest integer; a half goes to the even neighbour. -/
  nearestInt : α → Int
  isFinite : α → Bool
  /-- The nearest number to an integer, unless the integer lies beyond the largest number. -/
  ofInt? : Int → Option α
  /-- The number nearest to `digits * 10 ^ exponent`. -/
  ofDecimal : Nat → Int → α
  /-- The value of a finite double. -/
  ofDouble : Float → α

namespace Scalar

variable {α : Type} [Scalar α]

instance (priority := 100) (n : Nat) : OfNat α n := numeral n

instance (priority := 100) (x y : α) : Decidable (x < y) := decidableLt x y

instance (priority := 100) (x y : α) : Decidable (x ≤ y) := decidableLe x y

def ofNat (n : Nat) : α := (numeral n).ofNat

def ofInt (n : Int) : α := if n < 0 then -(ofNat n.natAbs) else ofNat n.natAbs

/-- The larger of two numbers; the first unless the second is strictly larger. -/
def larger (x y : α) : α := if x < y then y else x

/-- The smaller of two numbers; the first unless the second is strictly smaller. -/
def smaller (x y : α) : α := if y < x then y else x

end Scalar

end EditorTheme
