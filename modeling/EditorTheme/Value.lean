import EditorTheme.Decimal.Layout
import EditorTheme.Moment
import EditorTheme.Table
import EditorTheme.Text.Quoted

/-!
The data that a theme file holds, and the text of such data in messages. Integers are written with a limited number of
digits, so that there are values without a text.
-/

set_option autoImplicit false
set_option relaxedAutoImplicit false

namespace EditorTheme

/-- A value of a theme file. `absent` stands for an entry that is not there. -/
inductive Value where
  | absent
  | bool (b : Bool)
  | int (n : Int)
  | number (x : Float)
  | text (s : String)
  | moment (m : Moment)
  | list (items : List Value)
  | table (entries : List (String × Value))

namespace Value

/-- A table of values; a repeated name keeps its first place and takes the last value. -/
def ofPairs (pairs : List (String × Value)) : Value := .table (Table.ofList pairs).entries

/-- The most digits with which an integer is written or read. -/
def digitLimit : Nat := 4300

def isTooLong (n : Int) : Bool := Nat.pow 10 digitLimit ≤ n.natAbs

mutual

/-- The text of a value in messages, unless an integer in it has too many digits. -/
def describe? : Value → Option String
  | .absent => some "None"
  | .bool b => some (if b then "True" else "False")
  | .int n => if isTooLong n then none else some (toString n)
  | .number x => some (Decimal.text x)
  | .text s => some (Text.quoted s)
  | .moment m => some m.text
  | .list items => do return "[" ++ ", ".intercalate (← describeItems? items) ++ "]"
  | .table entries => do return "\x7b" ++ ", ".intercalate (← describeEntries? entries) ++ "\x7d"

def describeItems? : List Value → Option (List String)
  | [] => some []
  | v :: rest => do return (← describe? v) :: (← describeItems? rest)

def describeEntries? : List (String × Value) → Option (List String)
  | [] => some []
  | (name, v) :: rest => do return (Text.quoted name ++ ": " ++ (← describe? v)) :: (← describeEntries? rest)

end

end Value

/-- A value with its text in messages. -/
structure Described where
  value : Value
  words : String
  describes : value.describe? = some words

namespace Described

def text (s : String) : Described := ⟨.text s, Text.quoted s, rfl⟩

def number (x : Float) : Described := ⟨.number x, Decimal.text x, rfl⟩

def of? (v : Value) : Option Described :=
  match h : v.describe? with
  | some words => some ⟨v, words, h⟩
  | none => none

end Described

end EditorTheme
