import EditorTheme.Double

/-!
The shortest decimal that reads back as a given double: of all decimals in the interval of reals that round
to the double it has the fewest digits, and of those it is the nearest. The search runs over the decimal
grids from one digit to seventeen and compares in exact integers.
-/

set_option autoImplicit false
set_option relaxedAutoImplicit false

namespace EditorTheme

/-- The number `digits * 10 ^ exponent`. -/
structure Decimal where
  digits : Nat
  exponent : Int
  deriving Repr, DecidableEq

namespace Decimal

def compareRatio (d : Decimal) (num den : Nat) : Ordering :=
  compare (d.digits * Nat.pow 10 d.exponent.toNat * den) (num * Nat.pow 10 (-d.exponent).toNat)

/-- The largest natural `n` with `n * 10 ^ exponent` not above `num / den`. -/
def gridFloor (num den : Nat) (exponent : Int) : Nat :=
  num * Nat.pow 10 (-exponent).toNat / (den * Nat.pow 10 exponent.toNat)

/-- The least `k` with `num / den < 10 ^ k`, for a positive quotient. The binary logarithms place it within
two of an estimate. -/
def decimalLength (num den : Nat) : Int :=
  let estimate := ((num.log2 : Int) - den.log2) * 1233 / 4096
  let below (k : Int) : Bool := compareRatio ⟨1, k⟩ num den == .gt
  if below (estimate - 1) then estimate - 1
  else if below estimate then estimate
  else if below (estimate + 1) then estimate + 1
  else estimate + 2

/-- The reals that round to a positive double, as quotients over `den`: halfway to either neighbour. -/
structure Interval where
  low : Nat
  high : Nat
  den : Nat
  /-- Whether the ends belong to it: they round to the double exactly when its significand is even. -/
  closed : Bool

def Interval.contains (i : Interval) (d : Decimal) : Bool :=
  match d.compareRatio i.low i.den, d.compareRatio i.high i.den with
  | .gt, .lt => true
  | .eq, _ => i.closed
  | _, .eq => i.closed
  | _, _ => false

/-- Below a power of two the gap between doubles is half of the gap above it. -/
def intervalOf (x : Float) : Interval :=
  let m := Double.significand x
  let halfGapBelow := Double.fractionField x = 0 ∧ 1 < Double.exponentField x
  { low := (if halfGapBelow then 4 * m - 1 else 4 * m - 2) * Nat.pow 2 (Double.scale x)
    high := (4 * m + 2) * Nat.pow 2 (Double.scale x)
    den := 4 * Double.unitsPerOne
    closed := m % 2 = 0 }

/-- The point of one grid that lies in the interval and is nearest to `num / den`; a tie goes to the even one. -/
def nearestOnGrid (i : Interval) (num den : Nat) (exponent : Int) : Option Decimal :=
  let n := gridFloor num den exponent
  let below : Decimal := ⟨n, exponent⟩
  let above : Decimal := ⟨n + 1, exponent⟩
  match i.contains below, i.contains above with
  | true, true =>
    match compareRatio ⟨2 * n + 1, exponent⟩ (2 * num) den with
    | .gt => some below
    | .lt => some above
    | .eq => some (if n % 2 = 0 then below else above)
  | true, false => some below
  | false, true => some above
  | false, false => none

def stripZeros (d : Decimal) : Decimal :=
  if _h : d.digits ≠ 0 ∧ d.digits % 10 = 0 then
    stripZeros ⟨d.digits / 10, d.exponent + 1⟩
  else d
termination_by d.digits
decreasing_by omega

/-- The shortest decimal of the absolute value of a finite double other than zero. Seventeen digits always
suffice; the exact value stands behind them. -/
def shortest (x : Float) : Decimal :=
  let num := Double.magnitude x
  let den := Double.unitsPerOne
  let length := decimalLength num den
  let found := (List.range 17).findSome? fun (n : Nat) => nearestOnGrid (intervalOf x) num den (length - n - 1)
  (found.getD ⟨num * Nat.pow 5 1074, -1074⟩).stripZeros

end Decimal

end EditorTheme
