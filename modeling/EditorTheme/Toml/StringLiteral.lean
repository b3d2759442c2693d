import EditorTheme.Color.Rgb
import EditorTheme.Toml.Blank

/-!
TOML strings. Basic strings stand between double quotes and know escapes, literal strings stand between single
quotes and know none; both have a form over several lines between three quotes.
-/

set_option autoImplicit false
set_option relaxedAutoImplicit false

namespace EditorTheme.Toml

/-- The character of a code point, unless it is no Unicode scalar value. -/
def scalarChar? (n : Nat) : Option Char :=
  if n < 0xD800 ∨ (0xDFFF < n ∧ n ≤ 0x10FFFF) then some (Char.ofNat n) else none

/-- The characters of the escapes of one letter. -/
def escaped? : Char → Option Char
  | 'b' => some '\x08'
  | 't' => some '\t'
  | 'n' => some '\n'
  | 'f' => some '\x0c'
  | 'r' => some '\r'
  | '"' => some '"'
  | '\\' => some '\\'
  | _ => none

inductive Reading where
  | plain
  /-- The character after a backslash. -/
  | escape
  /-- A hexadecimal digit, with more to follow, and the value of those before it. -/
  | digit (more value : Nat)
  /-- After a backslash and a blank: only blanks may stand before the line break. -/
  | lineEnd
  /-- After a backslash at the end of a line: blanks and line breaks are dropped. -/
  | indentation

/-- Puts a character before the content of a string that is read on. -/
def withChar (c : Char) (r : Option (List Char × List Char)) : Option (List Char × List Char) :=
  r.map fun (content, rest) => (c :: content, rest)

/-- How a character is read: the first that is neither blank nor line break ends an indentation. -/
def Reading.at (r : Reading) (c : Char) : Reading :=
  match r with
  | .indentation => if isBlank c || c = '\n' then .indentation else .plain
  | r => r

def basicContent (multiline : Bool) (reading : Reading) : List Char → Option (List Char × List Char)
  | [] => none
  | c :: cs =>
    match reading.at c with
    | .plain =>
      if c = '"' then
        if multiline then
          match cs with
          | '"' :: '"' :: rest => some ([], rest)
          | _ => withChar '"' (basicContent multiline .plain cs)
        else some ([], cs)
      else if c = '\\' then basicContent multiline .escape cs
      else if isControl c && !(multiline && c = '\n') then none
      else withChar c (basicContent multiline .plain cs)
    | .escape =>
      if c = 'u' then basicContent multiline (.digit 3 0) cs
      else if c = 'U' then basicContent multiline (.digit 7 0) cs
      else if multiline && isBlank c then basicContent multiline .lineEnd cs
      else if multiline && c = '\n' then basicContent multiline .indentation cs
      else do withChar (← escaped? c) (basicContent multiline .plain cs)
    | .digit more value => do
      let value := 16 * value + (← Rgb.hexValue? c)
      match more with
      | 0 => withChar (← scalarChar? value) (basicContent multiline .plain cs)
      | more + 1 => basicContent multiline (.digit more value) cs
    | .lineEnd =>
      if isBlank c then basicContent multiline .lineEnd cs
      else if c = '\n' then basicContent multiline .indentation cs
      else none
    | .indentation => basicContent multiline .indentation cs

def literalContent : List Char → Option (List Char × List Char)
  | [] => none
  | c :: cs =>
    if c = '\'' then some ([], cs)
    else if isControl c then none
    else withChar c (literalContent cs)

def literalLines : List Char → Option (List Char × List Char)
  | [] => none
  | '\'' :: '\'' :: '\'' :: rest => some ([], rest)
  | c :: cs => if isControl c && c ≠ '\n' then none else withChar c (literalLines cs)

/-- Up to two quotes before the closing ones belong to a string of several lines. -/
def trailingQuotes (quote : Char) (content rest : List Char) : List Char × List Char :=
  match rest with
  | a :: b :: cs =>
    if a = quote then
      if b = quote then (content ++ [quote, quote], cs) else (content ++ [quote], b :: cs)
    else (content, rest)
  | [a] => if a = quote then (content ++ [quote], []) else (content, rest)
  | [] => (content, [])

/-- A line break right after the opening quotes is dropped. -/
def skipFirstBreak : List Char → List Char
  | '\n' :: cs => cs
  | cs => cs

def lineString? : List Char → Option (List Char × List Char)
  | '"' :: cs => basicContent false .plain cs
  | '\'' :: cs => literalContent cs
  | _ => none

def string? : List Char → Option (List Char × List Char)
  | '"' :: '"' :: '"' :: cs => do
    let (content, rest) ← basicContent true .plain (skipFirstBreak cs)
    return trailingQuotes '"' content rest
  | '\'' :: '\'' :: '\'' :: cs => do
    let (content, rest) ← literalLines (skipFirstBreak cs)
    return trailingQuotes '\'' content rest
  | cs => lineString? cs

end EditorTheme.Toml
