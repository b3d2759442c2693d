import EditorTheme.Text.Quoted
import EditorTheme.ThemeError

/-!
Colors by red, green and blue channel, and their hexadecimal texts.
-/

set_option autoImplicit false
set_option relaxedAutoImplicit false

namespace EditorTheme

/-- Channels run from 0 to 255; the type leaves room for any integer. -/
structure Rgb where
  red : Int
  green : Int
  blue : Int
  deriving Repr, DecidableEq

namespace Rgb

/-- Two lower case hexadecimal digits of a channel; more for a channel beyond 255, and a sign for a negative
one. -/
def channelText (n : Int) : List Char :=
  if n < 0 then '-' :: Text.hexDigits 1 n.natAbs else Text.hexDigits 2 n.natAbs

def hex (c : Rgb) : String :=
  String.ofList ('#' :: channelText c.red ++ channelText c.green ++ channelText c.blue)

def hexValue? (c : Char) : Option Nat :=
  if '0' ≤ c ∧ c ≤ '9' then some (c.toNat - '0'.toNat)
  else if 'a' ≤ c ∧ c ≤ 'f' then some (c.toNat - 'a'.toNat + 10)
  else if 'A' ≤ c ∧ c ≤ 'F' then some (c.toNat - 'A'.toNat + 10)
  else none

def channel? (high low : Char) : Option Int := do
  let h ← hexValue? high
  let l ← hexValue? low
  return (16 * h + l : Nat)

/-- Reads six hexadecimal digits, after a number sign or without it. -/
def ofHex? (cs : List Char) : Option Rgb :=
  let digits := if cs.head? = some '#' then cs.tail else cs
  match digits with
  | [a, b, c, d, e, f] => do return ⟨← channel? a b, ← channel? c d, ← channel? e f⟩
  | _ => none

def parse {α : Type} (text : String) : Except (ThemeError α) Rgb :=
  match ofHex? text.toList with
  | some c => .ok c
  | none => .error (.invalidHex (.text text))

def ofValue {α : Type} : Value → Except (Failure α) Rgb
  | .text s => Theme.fault (parse s)
  | v => .error (.showing v .invalidHex)

end Rgb

end EditorTheme
