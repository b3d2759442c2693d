import EditorTheme.Moment
import EditorTheme.Toml.Number

/-!
TOML dates and times. A date may be followed by a time, and that by an offset; what follows and is no time is
left in the text.
-/

set_option autoImplicit false
set_option relaxedAutoImplicit false

namespace EditorTheme.Toml

def fixedDigits? : Nat → List Char → Option (Nat × List Char)
  | 0, cs => some (0, cs)
  | n + 1, c :: cs =>
    if baseDigit 10 c then do
      let (value, rest) ← fixedDigits? n cs
      return (baseValue 10 [c] * Nat.pow 10 n + value, rest)
    else none
  | _ + 1, [] => none

def twoDigits? (low high : Nat) (cs : List Char) : Option (Nat × List Char) := do
  let (n, rest) ← fixedDigits? 2 cs
  if low ≤ n ∧ n ≤ high then some (n, rest) else none

def char? (c : Char) : List Char → Option (List Char)
  | d :: cs => if d = c then some cs else none
  | [] => none

/-- Reads the digits of a date. They may name a day that the calendar does not have. -/
def date? (cs : List Char) : Option (Date × List Char) := do
  let (year, cs) ← fixedDigits? 4 cs
  let (month, cs) ← twoDigits? 1 12 (← char? '-' cs)
  let (day, cs) ← twoDigits? 1 31 (← char? '-' cs)
  return (⟨year, month, day⟩, cs)

/-- The microseconds of the digits of a fraction of a second; digits after the sixth are dropped. -/
def microseconds (digits : List Char) : Nat := baseValue 10 ((digits ++ List.replicate 6 '0').take 6)

def secondFraction : List Char → Nat × List Char
  | '.' :: cs =>
    let digits := cs.takeWhile (baseDigit 10)
    if digits.isEmpty then (0, '.' :: cs) else (microseconds digits, cs.dropWhile (baseDigit 10))
  | cs => (0, cs)

def time? (cs : List Char) : Option (TimeOfDay × List Char) := do
  let (hour, cs) ← twoDigits? 0 23 cs
  let (minute, cs) ← twoDigits? 0 59 (← char? ':' cs)
  let (second, cs) ← twoDigits? 0 59 (← char? ':' cs)
  let (micro, cs) := secondFraction cs
  return (⟨hour, minute, second, micro⟩, cs)

/-- An offset in minutes, if one follows: a zed for universal time, or a sign, hours and minutes. -/
def offset? : List Char → Option (Int × List Char)
  | [] => none
  | c :: cs =>
    if c = 'Z' || c = 'z' then some (0, cs)
    else if c = '+' || c = '-' then do
      let (hour, cs) ← twoDigits? 0 23 cs
      let (minute, cs) ← twoDigits? 0 59 (← char? ':' cs)
      let minutes : Int := (60 * hour + minute : Nat)
      return (if c = '-' then -minutes else minutes, cs)
    else none

def timeAfterDate? : List Char → Option (TimeOfDay × List Char)
  | c :: cs => if c = 'T' || c = 't' || c = ' ' then time? cs else none
  | [] => none

def momentFrom (date : Date) (cs : List Char) : Moment × List Char :=
  match timeAfterDate? cs with
  | none => (.date date, cs)
  | some (time, cs) =>
    match offset? cs with
    | some (minutes, cs) => (.dateTime date time (some minutes), cs)
    | none => (.dateTime date time none, cs)

/-- Reads a date or a time. The outer option is empty when the text begins with neither, the inner one when
the date is not in the calendar. -/
def moment? (cs : List Char) : Option (Option (Value × List Char)) :=
  match date? cs with
  | some (date, cs) =>
    let (m, rest) := momentFrom date cs
    some (if date.isValid then some (.moment m, rest) else none)
  | none => (time? cs).map fun (time, rest) => some (.moment (.time time), rest)

end EditorTheme.Toml
