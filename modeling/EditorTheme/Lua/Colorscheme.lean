import EditorTheme.Color.Conversion
import EditorTheme.Lua.Quoted
import EditorTheme.Text.Word
import EditorTheme.Theme

/-!
The Lua source of a theme: a module that sets the highlight groups and global variables, and the file that
loads the module. Attributes and assignments are built as data and printed line by line.
-/

set_option autoImplicit false
set_option relaxedAutoImplicit false

namespace EditorTheme.Lua

variable {α : Type} [Scalar α]

def colorText (c : Option (Color α)) : String := (c.map Color.hex).getD "NONE"

/-- The value of an attribute of a highlight group. -/
inductive AttributeValue where
  | string (s : String)
  | enabled
  deriving Repr, DecidableEq

def AttributeValue.source : AttributeValue → String
  | .string s => quoted s
  | .enabled => "true"

/-- The attributes of a highlight group in the order in which they are written. -/
def attributes : Highlight α → List (String × AttributeValue)
  | .link target => [("link", .string target)]
  | .styled s =>
    [("fg", .string (colorText s.foreground)), ("bg", .string (colorText s.background))] ++
      (if s.special.isSome then [("sp", .string (colorText s.special))] else []) ++
      s.styles.toList.map fun f => (f.name, .enabled)

def attributeSource (a : String × AttributeValue) : String := a.1 ++ " = " ++ a.2.source

def highlightLine (group : String) (h : Highlight α) : String :=
  "    hl(0, " ++ quoted group ++ ", \x7b " ++ ", ".intercalate ((attributes h).map attributeSource) ++ " \x7d)"

/-- Whether a name can follow a point: it begins with an ASCII letter or an underscore and goes on with word
characters. -/
def isIdentifier : List Char → Bool
  | [] => false
  | c :: cs => (Text.isAsciiLetter c || c == '_') && cs.all Text.isWord

def globalTarget (name : String) : String :=
  if isIdentifier name.toList then "vim.g." ++ name else "vim.g[" ++ quoted name ++ "]"

def globalLine (name : String) (c : Option (Color α)) : String :=
  "    " ++ globalTarget name ++ " = " ++ quoted (colorText c)

/-- The lines before the highlight groups. -/
def openingLines : List String :=
  ["local M = \x7b\x7d",
   "",
   "local function set_hl_groups()",
   "    local hl = vim.api.nvim_set_hl",
   ""]

/-- The lines between the highlight groups and the globals. -/
def settingLines (background : Background) (name : String) : List String :=
  ["end",
   "",
   "function M.init()",
   "    vim.cmd(\"hi clear\")",
   "",
   "    if vim.fn.exists(\"syntax_on\") == 1 then",
   "        vim.cmd(\"syntax reset\")",
   "    end",
   "",
   "    vim.o.background = " ++ quoted background.name,
   "    vim.o.termguicolors = true",
   "    vim.g.colors_name = " ++ quoted name,
   ""]

/-- The lines of the globals; a blank line follows them if there are any. -/
def globalLines (globals : List (String × Option (Color α))) : List String :=
  if globals.isEmpty then [] else globals.map (fun g => globalLine g.1 g.2) ++ [""]

/-- The lines after the globals; the last one is empty, so that the text ends with a line feed. -/
def closingLines : List String :=
  ["    set_hl_groups()",
   "end",
   "",
   "return M",
   ""]

def moduleLines (t : Theme α) : List String :=
  openingLines ++ t.highlights.map (fun h => highlightLine h.1 h.2) ++ settingLines t.background t.name ++
    globalLines t.globals ++ closingLines

def moduleSource (t : Theme α) : String := "\n".intercalate (moduleLines t)

omit [Scalar α] in
def loaderSource (t : Theme α) : String := "require(" ++ quoted t.name ++ ").init()\n"

end EditorTheme.Lua
