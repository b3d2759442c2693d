/-!
Strings in Lua source, between double quotes. A backslash and a quote are escaped by a backslash, a line feed
is written as an escape, and every other character stands for itself.
-/

set_option autoImplicit false
set_option relaxedAutoImplicit false

namespace EditorTheme.Lua

def escapeChar (c : Char) : List Char :=
  if c = '\\' then ['\\', '\\']
  else if c = '"' then ['\\', '"']
  else if c = '\n' then ['\\', 'n']
  else [c]

def quotedChars (cs : List Char) : List Char := '"' :: cs.flatMap escapeChar ++ ['"']

def quoted (s : String) : String := String.ofList (quotedChars s.toList)

end EditorTheme.Lua
