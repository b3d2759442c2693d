import EditorTheme.Decimal.Rounding
import EditorTheme.Scalar

/-!
Doubles as exact numbers. A finite double is an integer number of units, the unit being the least positive
double, 2^-1074. Remainder, rounding to an integer and conversion from an integer are computed on units,
without error, and rounded once at the end. With these operations the doubles are a `Scalar`.
-/

set_option autoImplicit false
set_option relaxedAutoImplicit false

namespace EditorTheme.Double

open EditorTheme.Decimal (nearestDiv)

/-- How many units make one: 2^1074. -/
def unitsPerOne : Nat := Nat.pow 2 1074

def isNegative (x : Float) : Bool := Nat.pow 2 63 ≤ x.toBits.toNat

/-- The exponent field: zero below the least normal double, 2047 for infinities and NaN. -/
def exponentField (x : Float) : Nat := x.toBits.toNat % Nat.pow 2 63 / Nat.pow 2 52

def fractionField (x : Float) : Nat := x.toBits.toNat % Nat.pow 2 52

/-- The integer significand: a finite double is its significand times a power of two units. -/
def significand (x : Float) : Nat :=
  if exponentField x = 0 then fractionField x else Nat.pow 2 52 + fractionField x

def scale (x : Float) : Nat := exponentField x - 1

/-- The absolute value of a finite double in units. -/
def magnitude (x : Float) : Nat := significand x * Nat.pow 2 (scale x)

/-- The value of a finite double in units. -/
def units (x : Float) : Int := if isNegative x then -(magnitude x : Int) else magnitude x

/-- The double nearest to a number of units, ties to even; infinity beyond the largest double. The bits are
the scale above the significand, and a significand that rounds up to 2^53 carries into the scale. -/
def ofMagnitude (n : Nat) : Float :=
  let shift := n.log2 - 52
  Float.ofBits (UInt64.ofNat (min (shift * Nat.pow 2 52 + nearestDiv n (Nat.pow 2 shift)) (2047 * Nat.pow 2 52)))

def ofUnits (n : Int) : Float := if n < 0 then -(ofMagnitude n.natAbs) else ofMagnitude n.natAbs

/-- What is left of `x` after whole multiples of `y`, with the sign of `y`. A remainder of the other sign
is moved by `y` in one rounded addition, which can reach `y` itself; a zero remainder takes the sign of `y`. -/
def remainder (x y : Float) : Float :=
  if x.isFinite && y.isFinite && y != 0 then
    let rest := (units x).tmod (units y)
    if rest = 0 then (if isNegative y then -0.0 else 0.0)
    else if rest < 0 ↔ units y < 0 then ofUnits rest
    else ofUnits rest + y
  else if x.isFinite && !y.isNaN && y != 0 then
    if units x = 0 then (if isNegative y then -0.0 else 0.0)
    else if isNegative x = isNegative y then x
    else y
  else 0.0 / 0.0

/-- The integer nearest to a finite double; a half goes to the even neighbour. -/
def nearestInt (x : Float) : Int :=
  let n := nearestDiv (magnitude x) unitsPerOne
  if isNegative x then -(n : Int) else n

/-- The double nearest to an integer, or `none` where that is infinite. -/
def ofInt? (n : Int) : Option Float :=
  let x := ofUnits (n * unitsPerOne)
  if x.isFinite then some x else none

/-- The double nearest to `digits * 10 ^ exponent`. The digits' count tells numbers that are beyond the
largest double, or below half a unit, before any power of ten is formed. -/
def ofDecimal (digits : Nat) (exponent : Int) : Float :=
  let leading : Int := exponent + (Nat.toDigits 10 digits).length
  if digits = 0 then 0.0
  else if 400 < leading then 1.0 / 0.0
  else if leading < -400 then 0.0
  else Float.ofScientific digits (exponent < 0) exponent.natAbs

instance : Scalar Float where
  numeral := fun _ => inferInstance
  decidableLt := fun _ _ => inferInstance
  decidableLe := fun _ _ => inferInstance
  remainder := remainder
  nearestInt := nearestInt
  isFinite := Float.isFinite
  ofInt? := ofInt?
  ofDecimal := ofDecimal
  ofDouble := id

end EditorTheme.Double
