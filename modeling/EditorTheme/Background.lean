import EditorTheme.Text.Blank
import EditorTheme.Text.LetterCase
import EditorTheme.ThemeError

/-!
The background that a theme is made for.
-/

set_option autoImplicit false
set_option relaxedAutoImplicit false

namespace EditorTheme

inductive Background where
  | dark
  | light
  deriving Repr, DecidableEq

namespace Background

def name : Background → String
  | .dark => "dark"
  | .light => "light"

def title : Background → String
  | .dark => "DARK"
  | .light => "LIGHT"

def ofWord? (word : List Char) : Option Background :=
  [Background.dark, .light].find? fun b => b.name.toList = word

/-- Reads a background; letter case and blanks at the ends do not count. -/
def read {α : Type} (s : String) : Except (ThemeError α) Background :=
  match ofWord? (Text.lower (Text.trim s.toList)) with
  | some b => .ok b
  | none => .error (.invalidBackground (.text s))

def ofValue {α : Type} : Value → Except (Failure α) Background
  | .text s => Theme.fault (read s)
  | v => .error (.showing v .invalidBackground)

end Background

end EditorTheme
