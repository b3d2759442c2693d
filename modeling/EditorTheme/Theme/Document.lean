import EditorTheme.Expression.Grammar
import EditorTheme.ThemeError
import EditorTheme.Text.Blank

/-!
The sections of a theme file before any color is computed. A document is built from a table of values; the
first section that has the wrong shape is reported, in the order hues, name, background, colors, highlights,
globals.
-/

set_option autoImplicit false
set_option relaxedAutoImplicit false

namespace EditorTheme

structure ThemeDocument where
  name : String
  background : String
  colors : List (String × String)
  hues : List (String × Value)
  highlights : List (String × String)
  globals : List (String × String)

namespace ThemeDocument

variable {α : Type}

def textEntry (sectionName : String) (entry : String × Value) : Except (Failure α) (String × String) :=
  match entry.2 with
  | .text s => .ok (entry.1, s)
  | v => .error (.showing v (.invalidEntry sectionName (some entry.1)))

/-- A section that must be a table of texts. -/
def textSection (sectionName : String) : Value → Except (Failure α) (List (String × String))
  | .table entries => entries.mapM (textEntry sectionName)
  | v => .error (.showing v (.invalidEntry sectionName none))

/-- A section that must be a table of texts and may be left out. -/
def optionalSection (data : List (String × Value)) (sectionName : String) :
    Except (Failure α) (List (String × String)) :=
  match data.lookup sectionName with
  | some v => textSection sectionName v
  | none => .ok []

def requiredSection (data : List (String × Value)) (sectionName : String) :
    Except (Failure α) (List (String × String)) :=
  textSection sectionName ((data.lookup sectionName).getD .absent)

/-- The hues, which may be left out and may have values of any kind. -/
def hueSection (data : List (String × Value)) : Except (Failure α) (List (String × Value)) :=
  match data.lookup "hues" with
  | none => .ok []
  | some (.table entries) => .ok entries
  | some v => .error (.showing v (.invalidEntry "hues" none))

/-- A text that is not blank. -/
def scalar (data : List (String × Value)) (key : String) : Except (Failure α) String :=
  match (data.lookup key).getD .absent with
  | .text s => if (Text.trim s.toList).isEmpty then .error (.theme (.invalidEntry key none (.text s))) else .ok s
  | v => .error (.showing v (.invalidEntry key none))

/-- The name of the theme. It names a folder and a module, and so has the form of a color name. -/
def themeName (data : List (String × Value)) : Except (Failure α) String := do
  let name ← scalar data "name"
  if Expression.isName name.toList then return name
  else throw (.theme (.invalidEntry "name" none (.text name)))

def ofData (data : List (String × Value)) : Except (Failure α) ThemeDocument := do
  let hues ← hueSection data
  let name ← themeName data
  let background ← scalar data "background"
  let colors ← requiredSection data "colors"
  let highlights ← optionalSection data "highlights"
  let globals ← optionalSection data "globals"
  return { name, background, colors, hues, highlights, globals }

end ThemeDocument

end EditorTheme
