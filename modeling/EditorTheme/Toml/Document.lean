import EditorTheme.Toml.Content

/-!
TOML documents, statement by statement. A header opens a table or adds one to a list; a pair adds an entry to
the open table. A table may be declared once, and values that were written out as a whole stay as they are.
-/

set_option autoImplicit false
set_option relaxedAutoImplicit false

namespace EditorTheme.Toml

/-- What has been read so far. -/
structure Progress where
  entries : Entries
  /-- The path of the open table. -/
  header : List String
  /-- Tables that no header may open any more. -/
  declared : List (List String)
  /-- Tables made by dotted keys; they count as declared from the next header on. -/
  pending : List (List String)
  /-- Values that were written out as a whole. -/
  closed : List (List String)

namespace Progress

def start : Progress where
  entries := []
  header := []
  declared := []
  pending := []
  closed := []

/-- Tables made by dotted keys become declared tables. -/
def settle (p : Progress) : Progress := { p with declared := p.declared ++ p.pending, pending := [] }

/-- Opens the table of a header. -/
def openTable (p : Progress) (key : List String) : Option Progress := do
  let p := p.settle
  if p.declared.contains key || isWithin p.closed key then none
  else
    let entries ← changeAt true some key p.entries
    return { p with entries, header := key, declared := key :: p.declared }

/-- Adds a table to the list of a header and opens it. What was declared below the list before is forgotten. -/
def openListItem (p : Progress) (key : List String) : Option Progress := do
  let p := p.settle
  if isWithin p.closed key then none
  else
    let entries ← changeAt true (appendTable (key.getLastD "")) key.dropLast p.entries
    let below (path : List String) : Bool := key.isPrefixOf path
    return { p with
      entries
      header := key
      declared := key :: p.declared.filter fun path => !below path
      closed := p.closed.filter fun path => !below path }

/-- Adds a pair to the open table. The tables on the way of a dotted key may not be declared ones. -/
def addPair (p : Progress) (key : List String) (value : Value) : Option Progress := do
  let onTheWay := ((List.range key.length).drop 1).map fun n => p.header ++ key.take n
  if onTheWay.any p.declared.contains then none
  else if isWithin p.closed (p.header ++ key.dropLast) then none
  else
    let entries ← changeAt true (addNew (key.getLastD "") value) (p.header ++ key.dropLast) p.entries
    return { p with
      entries
      pending := p.pending ++ onTheWay
      closed := if isClosed value then (p.header ++ key) :: p.closed else p.closed }

end Progress

def readStatement (p : Progress) (cs : List Char) : Except Fault (Progress × List Char) :=
  match cs with
  | '[' :: '[' :: rest => do
    let (key, rest) ← key? (rest.length + 1) (skipBlanks rest)
    let rest ← char? ']' (← char? ']' rest)
    return (← p.openListItem key, rest)
  | '[' :: rest => do
    let (key, rest) ← key? (rest.length + 1) (skipBlanks rest)
    let rest ← char? ']' rest
    return (← p.openTable key, rest)
  | c :: _ => do
    if isBareKeyChar c || c = '"' || c = '\'' then
      let ((key, value), rest) ← readPair (depthLimit cs) cs
      return (← p.addPair key value, rest)
    else if c = '#' || c = '\n' then return (p, cs)
    else throw .malformed
  | [] => return (p, [])

/-- Reads statements, one to a line, to the end of the text. Every round reads a character, so that a limit of
one more than the number of characters is never met. -/
def readStatements : Nat → Progress → List Char → Except Fault Progress
  | 0, _, _ => throw .malformed
  | limit + 1, p, cs => do
    let (p, rest) ← readStatement p (skipBlanks cs)
    match (← skipComment (skipBlanks rest)) with
    | [] => return p
    | '\n' :: rest => readStatements limit p rest
    | _ => throw .malformed

def parse (text : String) : Except Fault Entries := do
  let cs := normalizeLines text.toList
  return (← readStatements (cs.length + 1) Progress.start cs).entries

end EditorTheme.Toml
