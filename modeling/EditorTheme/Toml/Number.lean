import EditorTheme.Color.Rgb
import EditorTheme.Decimal.Numeral
import EditorTheme.Double
import EditorTheme.Value

/-!
TOML numbers: integers in four bases, decimal numbers with a fraction or an exponent, infinity and not a
number. Single underscores may stand between digits. A decimal integer may have no more digits than are read, which ends
the reading of the document; the other bases have no such limit.
-/

set_option autoImplicit false
set_option relaxedAutoImplicit false

namespace EditorTheme.Toml

inductive Fault where
  | malformed
  | integerTooLong
  deriving Repr, DecidableEq

/-- Where something is missing that has to follow, the text is malformed. -/
instance : MonadLift Option (Except Fault) where
  monadLift
    | some result => .ok result
    | none => .error .malformed

/-- The digits after a digit, underscores left out, and the rest of the text. -/
def moreDigits (isDigit : Char → Bool) : List Char → List Char × List Char
  | [] => ([], [])
  | '_' :: c :: cs =>
    if isDigit c then
      let (digits, rest) := moreDigits isDigit cs
      (c :: digits, rest)
    else ([], '_' :: c :: cs)
  | c :: cs =>
    if isDigit c then
      let (digits, rest) := moreDigits isDigit cs
      (c :: digits, rest)
    else ([], c :: cs)

/-- At least one digit, underscores left out, and the rest of the text. -/
def digits? (isDigit : Char → Bool) : List Char → Option (List Char × List Char)
  | c :: cs =>
    if isDigit c then
      let (digits, rest) := moreDigits isDigit cs
      some (c :: digits, rest)
    else none
  | [] => none

def baseDigit (base : Nat) (c : Char) : Bool := (Rgb.hexValue? c).any fun value => value < base

def baseValue (base : Nat) (digits : List Char) : Nat :=
  digits.foldl (fun n c => base * n + (Rgb.hexValue? c).getD 0) 0

def prefixBase? : Char → Option Nat
  | 'x' => some 16
  | 'o' => some 8
  | 'b' => some 2
  | _ => none

def basedInteger? : List Char → Option (Value × List Char)
  | '0' :: mark :: cs => do
    let base ← prefixBase? mark
    let (digits, rest) ← digits? (baseDigit base) cs
    return (.int (baseValue base digits : Nat), rest)
  | _ => none

/-- The integer part of a decimal number: no zero stands before another digit. -/
def wholePart? : List Char → Option (List Char × List Char)
  | '0' :: cs => some (['0'], cs)
  | cs => digits? (baseDigit 10) cs

def fraction? : List Char → Option (List Char × List Char)
  | '.' :: cs => digits? (baseDigit 10) cs
  | _ => none

def exponent? : List Char → Option (Int × List Char)
  | mark :: cs =>
    if mark = 'e' || mark = 'E' then do
      let (negative, cs) := Decimal.takeSign cs
      let (digits, rest) ← digits? (baseDigit 10) cs
      return (if negative then -(baseValue 10 digits : Int) else baseValue 10 digits, rest)
    else none
  | [] => none

/-- A decimal number: an integer unless a fraction or an exponent follows. -/
def decimal? (cs : List Char) : Option (Value × List Char) := do
  let (negative, cs) := Decimal.takeSign cs
  let (whole, cs) ← wholePart? cs
  let fraction := fraction? cs
  let cs := (fraction.map Prod.snd).getD cs
  let exponent := exponent? cs
  let cs := (exponent.map Prod.snd).getD cs
  if fraction.isNone && exponent.isNone then
    let n := baseValue 10 whole
    return (.int (if negative then -(n : Int) else n), cs)
  else
    let places := (fraction.map Prod.fst).getD []
    let power := (exponent.map Prod.fst).getD 0
    let n : Decimal.Numeral := ⟨negative, baseValue 10 (whole ++ places), power - places.length⟩
    return (.number n.value, cs)

def specialNumber? (cs : List Char) : Option (Value × List Char) :=
  let (negative, cs) := Decimal.takeSign cs
  match cs with
  | 'i' :: 'n' :: 'f' :: rest => some (.number (if negative then -1.0 / 0.0 else 1.0 / 0.0), rest)
  | 'n' :: 'a' :: 'n' :: rest => some (.number (0.0 / 0.0), rest)
  | _ => none

/-- Reads a number; a text that begins like a based integer and is none is read as a decimal number. -/
def readNumber (cs : List Char) : Except Fault (Value × List Char) := do
  match basedInteger? cs with
  | some result => return result
  | none =>
    match decimal? cs with
    | some (.int n, rest) => if Value.isTooLong n then throw .integerTooLong else return (.int n, rest)
    | some result => return result
    | none => specialNumber? cs

end EditorTheme.Toml
