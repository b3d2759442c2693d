import EditorTheme.Decimal.Shortest

/-!
How numbers are written: the shortest form, which is positional for moderate exponents and scientific
beyond, and the form with a fixed number of places.
-/

set_option autoImplicit false
set_option relaxedAutoImplicit false

namespace EditorTheme.Decimal

structure Layout where
  /-- The least exponent of the leading digit that is written positionally. -/
  plainFrom : Int
  /-- The exponent of the leading digit from which on the number is written scientifically. -/
  plainBelow : Int
  /-- The least number of exponent digits. -/
  exponentWidth : Nat
  nan : String
  infinity : String

/-- Numbers are positional from one ten-thousandth up to 10^16 and have at least two exponent digits. -/
def standardLayout : Layout where
  plainFrom := -4
  plainBelow := 16
  exponentWidth := 2
  nan := "nan"
  infinity := "inf"

def zeros (n : Nat) : List Char := List.replicate n '0'

def paddedDigits (width n : Nat) : List Char :=
  let ds := Nat.toDigits 10 n
  zeros (width - ds.length) ++ ds

/-- Positional notation; a whole number ends in a point and a zero. -/
def positional (d : Decimal) : List Char :=
  let ds := Nat.toDigits 10 d.digits
  let whole := (ds.length : Int) + d.exponent
  if 0 ≤ d.exponent then ds ++ zeros d.exponent.toNat ++ ['.', '0']
  else if 0 < whole then ds.take whole.toNat ++ '.' :: ds.drop whole.toNat
  else '0' :: '.' :: zeros (-whole).toNat ++ ds

/-- One digit before the point and a signed exponent. -/
def scientific (width : Nat) (d : Decimal) : List Char :=
  let ds := Nat.toDigits 10 d.digits
  let lead := (ds.length : Int) + d.exponent - 1
  let mantissa := ds.take 1 ++ (if ds.length ≤ 1 then [] else '.' :: ds.drop 1)
  mantissa ++ 'e' :: (if lead < 0 then '-' else '+') :: paddedDigits width lead.natAbs

def Layout.ofDecimal (f : Layout) (d : Decimal) : List Char :=
  let lead := ((Nat.toDigits 10 d.digits).length : Int) + d.exponent - 1
  if f.plainFrom ≤ lead ∧ lead < f.plainBelow then d.positional else d.scientific f.exponentWidth

/-- A sign is written before negative numbers and before the negative zero. -/
def signed (x : Float) (text : List Char) : List Char :=
  if Double.isNegative x then '-' :: text else text

/-- The shortest text that reads back as the number. -/
def Layout.render (f : Layout) (x : Float) : String :=
  if x.isNaN then f.nan
  else if !x.isFinite then String.ofList (signed x f.infinity.toList)
  else if Double.magnitude x = 0 then String.ofList (signed x ['0', '.', '0'])
  else String.ofList (signed x (f.ofDecimal (shortest x)))

/-- The absolute value of a finite double in units of `10 ^ -places`, rounded with ties to even. -/
def scaled (places : Nat) (x : Float) : Nat :=
  nearestDiv (Double.magnitude x * Nat.pow 10 places) Double.unitsPerOne

/-- A natural of units of `10 ^ -places` with its point. -/
def withPoint (places n : Nat) : List Char :=
  let ds := paddedDigits (places + 1) n
  if places = 0 then ds
  else ds.take (ds.length - places) ++ '.' :: ds.drop (ds.length - places)

/-- The text of a number rounded to a number of places. -/
def fixed (places : Nat) (x : Float) : String :=
  if x.isNaN then standardLayout.nan
  else if !x.isFinite then String.ofList (signed x standardLayout.infinity.toList)
  else String.ofList (signed x (withPoint places (scaled places x)))

/-- The double nearest to a number rounded to a number of places. -/
def roundPlaces (places : Nat) (x : Float) : Float :=
  if x.isFinite then
    let rounded := Double.ofDecimal (scaled places x) (-(places : Int))
    if Double.isNegative x then -rounded else rounded
  else x

def text (x : Float) : String := standardLayout.render x

end EditorTheme.Decimal
