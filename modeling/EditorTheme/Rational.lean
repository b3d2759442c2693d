import EditorTheme.Decimal.Rounding
import EditorTheme.Double

/-!
The rationals as a `Scalar`: no operation rounds and every number is finite, so a formula read over them is
the formula itself.
-/

set_option autoImplicit false
set_option relaxedAutoImplicit false

namespace EditorTheme.Rational

open EditorTheme.Decimal (nearestDiv)

/-- The part of `x` above the largest whole multiple of `y` that is not above `x`, for positive `y`. -/
def remainder (x y : Rat) : Rat := x - y * ((x / y).floor : Rat)

/-- The nearest integer; a half goes to the even neighbour. -/
def nearestInt (x : Rat) : Int :=
  let n := nearestDiv x.num.natAbs x.den
  if x.num < 0 then -(n : Int) else n

def ofDecimal (digits : Nat) (exponent : Int) : Rat :=
  Rat.ofScientific digits (exponent < 0) exponent.natAbs

def ofDouble (x : Float) : Rat := mkRat (Double.units x) Double.unitsPerOne

instance : Scalar Rat where
  numeral := fun _ => inferInstance
  decidableLt := fun _ _ => inferInstance
  decidableLe := fun _ _ => inferInstance
  remainder := remainder
  nearestInt := nearestInt
  isFinite := fun _ => true
  ofInt? := fun n => some (n : Rat)
  ofDecimal := ofDecimal
  ofDouble := ofDouble

end EditorTheme.Rational
