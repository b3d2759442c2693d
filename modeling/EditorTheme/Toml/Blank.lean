/-!
What stands between the tokens of a TOML document: blanks, line breaks and comments. A comment may hold no
control character but the tab.
-/

set_option autoImplicit false
set_option relaxedAutoImplicit false

namespace EditorTheme.Toml

def isBlank (c : Char) : Bool := c == ' ' || c == '\t'

def isControl (c : Char) : Bool := (c.toNat < 0x20 && c != '\t') || c.toNat == 0x7F

def skipBlanks (cs : List Char) : List Char := cs.dropWhile isBlank

/-- The rest of a text after the comment that it may begin with, up to the end of its line. -/
def skipComment : List Char → Option (List Char)
  | '#' :: cs =>
    if (cs.takeWhile (· ≠ '\n')).any isControl then none else some (cs.dropWhile (· ≠ '\n'))
  | cs => some cs

/-- The rest of a text after blanks, line breaks and comments. `inComment` says that a comment is being
skipped. -/
def skipLines (inComment : Bool) : List Char → Option (List Char)
  | [] => some []
  | c :: cs =>
    if c = '\n' then skipLines false cs
    else if inComment then (if isControl c then none else skipLines true cs)
    else if isBlank c then skipLines false cs
    else if c = '#' then skipLines true cs
    else some (c :: cs)

/-- Line breaks of two characters become line feeds. -/
def normalizeLines : List Char → List Char
  | [] => []
  | '\r' :: '\n' :: cs => '\n' :: normalizeLines cs
  | c :: cs => c :: normalizeLines cs

end EditorTheme.Toml
