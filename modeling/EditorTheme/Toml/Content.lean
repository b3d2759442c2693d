import EditorTheme.Toml.Moment
import EditorTheme.Toml.Nesting
import EditorTheme.Toml.StringLiteral

/-!
TOML keys and values. A value may hold others, in arrays over several lines and in tables on one line; the
depth of calls is bounded by the length of the text, since every call reads a character or calls one that does.
-/

set_option autoImplicit false
set_option relaxedAutoImplicit false

namespace EditorTheme.Toml

def isBareKeyChar (c : Char) : Bool := c.isAlphanum || c == '-' || c == '_'

/-- One part of a key: a bare word or a string of one line. -/
def keyPart? : List Char → Option (String × List Char)
  | [] => none
  | c :: cs =>
    if isBareKeyChar c then
      some (String.ofList (c :: cs.takeWhile isBareKeyChar), cs.dropWhile isBareKeyChar)
    else (lineString? (c :: cs)).map fun (content, rest) => (String.ofList content, rest)

def key? : Nat → List Char → Option (List String × List Char)
  | 0, _ => none
  | limit + 1, cs => do
    let (part, rest) ← keyPart? cs
    match skipBlanks rest with
    | '.' :: rest => do
      let (parts, rest) ← key? limit (skipBlanks rest)
      return (part :: parts, rest)
    | rest => return ([part], rest)

/-- Whether a path lies at or below one of the given paths. -/
def isWithin (paths : List (List String)) (path : List String) : Bool := paths.any fun p => p.isPrefixOf path

/-- Whether nothing may be added to a value: it was written out as a whole. -/
def isClosed : Value → Bool
  | .table _ => true
  | .list _ => true
  | _ => false

mutual

def readValue : Nat → List Char → Except Fault (Value × List Char)
  | 0, _ => throw .malformed
  | limit + 1, cs =>
    match cs with
    | '"' :: _ => do
      let (content, rest) ← string? cs
      return (.text (String.ofList content), rest)
    | '\'' :: _ => do
      let (content, rest) ← string? cs
      return (.text (String.ofList content), rest)
    | 't' :: 'r' :: 'u' :: 'e' :: rest => return (.bool true, rest)
    | 'f' :: 'a' :: 'l' :: 's' :: 'e' :: rest => return (.bool false, rest)
    | '[' :: rest => do
      let (items, rest) ← readItems limit (← skipLines false rest)
      return (.list items, rest)
    | '\x7b' :: rest => do
      match skipBlanks rest with
      | '\x7d' :: rest => return (.table [], rest)
      | rest =>
        let (entries, rest) ← readPairs limit [] [] rest
        return (.table entries, rest)
    | _ =>
      match moment? cs with
      | some found => found
      | none => readNumber cs

/-- The items of an array up to its closing bracket. A comma may follow the last one. -/
def readItems : Nat → List Char → Except Fault (List Value × List Char)
  | 0, _ => throw .malformed
  | limit + 1, cs =>
    match cs with
    | ']' :: rest => return ([], rest)
    | _ => do
      let (item, rest) ← readValue limit cs
      match (← skipLines false rest) with
      | ']' :: rest => return ([item], rest)
      | ',' :: rest => do
        let (items, rest) ← readItems limit (← skipLines false rest)
        return (item :: items, rest)
      | _ => throw .malformed

def readPair : Nat → List Char → Except Fault ((List String × Value) × List Char)
  | 0, _ => throw .malformed
  | limit + 1, cs => do
    let (key, rest) ← key? (cs.length + 1) cs
    let rest ← char? '=' rest
    let (value, rest) ← readValue limit (skipBlanks rest)
    return ((key, value), rest)

/-- The pairs of a table on one line up to its closing brace, added to the entries before them. Keys may not
reach into the closed values of earlier pairs. -/
def readPairs : Nat → List (List String) → Entries → List Char → Except Fault (Entries × List Char)
  | 0, _, _, _ => throw .malformed
  | limit + 1, closed, entries, cs => do
    let ((key, value), rest) ← readPair limit cs
    if isWithin closed key then throw .malformed
    else
      let entries ← changeAt false (addNew (key.getLastD "") value) key.dropLast entries
      match skipBlanks rest with
      | '\x7d' :: rest => return (entries, rest)
      | ',' :: rest => readPairs limit (if isClosed value then key :: closed else closed) entries (skipBlanks rest)
      | _ => throw .malformed

end

/-- Calls that reading a text can nest: at most three for each character. -/
def depthLimit (cs : List Char) : Nat := 3 * cs.length + 3

end EditorTheme.Toml
