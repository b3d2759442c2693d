import EditorTheme.Text.Blank
import EditorTheme.Text.LetterCase
import EditorTheme.Text.Word

/-!
The words that color expressions are written in: names, and calls with their arguments. The recognisers work
on characters and look nothing up.
-/

set_option autoImplicit false
set_option relaxedAutoImplicit false

namespace EditorTheme.Expression

open EditorTheme.Text

/-- A name begins with an ASCII letter or digit or an underscore and goes on with word characters and hyphens. -/
def isName : List Char → Bool
  | [] => false
  | c :: cs => (isAsciiLetter c || isAsciiDigit c || c == '_') && cs.all fun d => isWord d || d == '-'

/-- A call written down: its function word, and the text between the first parenthesis and the last one. -/
structure Call where
  word : List Char
  body : List Char
  deriving Repr, DecidableEq

/-- The text between a parenthesis that opens a text and one that closes it. -/
def parenthesized? : List Char → Option (List Char)
  | '(' :: cs => if cs.getLast? = some ')' then some cs.dropLast else none
  | _ => none

/-- Reads a whole text as a call. The word begins with an ASCII letter or an underscore and goes on with word
characters; blanks may stand between it and the parenthesis. -/
def Call.read? : List Char → Option Call
  | [] => none
  | c :: cs =>
    if isAsciiLetter c || c == '_' then
      (parenthesized? (dropBlanks (cs.dropWhile isWord))).map fun body => ⟨c :: cs.takeWhile isWord, body⟩
    else none

def Call.arguments (call : Call) : List (List Char) := (call.body.splitOn ',').map trim

inductive Function where
  | hsl
  | adjust
  | darken
  | lighten
  | mix
  deriving Repr, DecidableEq

namespace Function

def name : Function → String
  | .hsl => "hsl"
  | .adjust => "adjust"
  | .darken => "darken"
  | .lighten => "lighten"
  | .mix => "mix"

def arity : Function → Nat
  | .hsl => 3
  | .adjust => 3
  | .darken => 2
  | .lighten => 2
  | .mix => 3

def all : List Function := [.hsl, .adjust, .darken, .lighten, .mix]

def ofWord? (word : List Char) : Option Function := all.find? fun f => f.name.toList = lower word

end Function

/-- Whether a text is a literal or a call rather than a name; blanks at its ends do not count. -/
def isExpression (text : String) : Bool :=
  let cs := trim text.toList
  cs.head? = some '#' || (Call.read? cs).isSome

end EditorTheme.Expression
