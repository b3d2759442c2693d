import EditorTheme.Scalar
import EditorTheme.Text.Word

/-!
Decimal numerals: a sign, digits with a point among them or before them, and an exponent. The digits may be
those of any script.
-/

set_option autoImplicit false
set_option relaxedAutoImplicit false

namespace EditorTheme.Decimal

open EditorTheme.Text

/-- A numeral's number is `digits * 10 ^ exponent`, negated where `negative` says so. -/
structure Numeral where
  negative : Bool
  digits : Nat
  exponent : Int
  deriving Repr, DecidableEq

/-- Splits a sign off a text; no sign means plus. -/
def takeSign : List Char → Bool × List Char
  | '-' :: cs => (true, cs)
  | '+' :: cs => (false, cs)
  | cs => (false, cs)

def takeDigits (cs : List Char) : List Char × List Char :=
  (cs.takeWhile isDecimalDigit, cs.dropWhile isDecimalDigit)

def takeFraction : List Char → List Char × List Char
  | '.' :: cs => takeDigits cs
  | cs => ([], cs)

/-- Reads a whole text as an exponent; the empty text is the exponent zero. -/
def readExponent : List Char → Option Int
  | [] => some 0
  | mark :: cs =>
    let (negative, rest) := takeSign cs
    let (digits, rest) := takeDigits rest
    if (mark = 'e' || mark = 'E') && !digits.isEmpty && rest.isEmpty then
      some (if negative then -(digitsValue digits : Int) else digitsValue digits)
    else none

def Numeral.read? (cs : List Char) : Option Numeral :=
  let (negative, rest) := takeSign cs
  let (whole, rest) := takeDigits rest
  let (fraction, rest) := takeFraction rest
  if whole.isEmpty && fraction.isEmpty then none
  else (readExponent rest).map fun exponent =>
    ⟨negative, digitsValue (whole ++ fraction), exponent - fraction.length⟩

def Numeral.value {α : Type} [Scalar α] (n : Numeral) : α :=
  let size := Scalar.ofDecimal n.digits n.exponent
  if n.negative then -size else size

end EditorTheme.Decimal
