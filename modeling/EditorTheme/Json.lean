import EditorTheme.Decimal.Layout
import EditorTheme.Text.Quoted

/-!
JSON text, indented by two blanks. Strings are written in ASCII: a character beyond it is an escape by its
16-bit units.
-/

set_option autoImplicit false
set_option relaxedAutoImplicit false

namespace EditorTheme

inductive Json where
  | text (s : String)
  | number (x : Float)
  | array (items : List Json)
  | object (entries : List (String × Json))

namespace Json

/-- The 16-bit units of a code point: a pair beyond U+FFFF. -/
def units16 (n : Nat) : List Nat :=
  if n < 0x10000 then [n] else [0xD800 + (n - 0x10000) / 0x400, 0xDC00 + (n - 0x10000) % 0x400]

def escapeChar (c : Char) : List Char :=
  if c = '"' then ['\\', '"']
  else if c = '\\' then ['\\', '\\']
  else if c = '\n' then ['\\', 'n']
  else if c = '\r' then ['\\', 'r']
  else if c = '\t' then ['\\', 't']
  else if c = '\x0c' then ['\\', 'f']
  else if c = '\x08' then ['\\', 'b']
  else if 0x20 ≤ c.toNat ∧ c.toNat ≤ 0x7E then [c]
  else (units16 c.toNat).flatMap fun u => '\\' :: 'u' :: Text.hexDigits 4 u

def quoted (s : String) : String := String.ofList ('"' :: s.toList.flatMap escapeChar ++ ['"'])

/-- Numbers as everywhere, but with the words of JSON writers for what is not finite. -/
def numberLayout : Decimal.Layout :=
  { Decimal.standardLayout with nan := "NaN", infinity := "Infinity" }

def newline (depth : Nat) : String := "\n" ++ String.ofList (List.replicate (2 * depth) ' ')

/-- Items between brackets, each on a line of its own; without items the brackets stand together. -/
def bracketed (opening closing : String) (depth : Nat) (items : List String) : String :=
  if items.isEmpty then opening ++ closing
  else opening ++ newline (depth + 1) ++ ("," ++ newline (depth + 1)).intercalate items ++
    newline depth ++ closing

mutual

def renderAt (depth : Nat) : Json → String
  | .text s => quoted s
  | .number x => numberLayout.render x
  | .array items => bracketed "[" "]" depth (renderItems (depth + 1) items)
  | .object entries => bracketed "\x7b" "\x7d" depth (renderEntries (depth + 1) entries)

def renderItems (depth : Nat) : List Json → List String
  | [] => []
  | v :: rest => renderAt depth v :: renderItems depth rest

def renderEntries (depth : Nat) : List (String × Json) → List String
  | [] => []
  | (name, v) :: rest => (quoted name ++ ": " ++ renderAt depth v) :: renderEntries depth rest

end

def render (v : Json) : String := renderAt 0 v

end Json

end EditorTheme
