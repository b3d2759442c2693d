import EditorTheme.Expression.Reading
import EditorTheme.Highlight

/-!
Global variables that hold colors. A value is a color name, a hyphen, or a color expression written in place;
a name wins over an expression.
-/

set_option autoImplicit false
set_option relaxedAutoImplicit false

namespace EditorTheme.GlobalColor

variable {α : Type} [Scalar α]

/-- The color of an expression for a global; what it refers to must be a color of the theme. -/
def ofExpression (colors : Table (Color α)) (hues : HueTable α) (name : String) (e : Expression α) :
    Except (ThemeError α) (Color α) :=
  match e.references.find? fun reference => !colors.contains reference with
  | some reference => .error (.unknownColor reference name)
  | none => e.eval hues colors

def read (colors : Table (Color α)) (hues : HueTable α) (name value : String) :
    Except (ThemeError α) (Option (Color α)) :=
  let text := Text.trimmed value
  if text ≠ "-" ∧ !colors.contains text ∧ Expression.isExpression text then do
    return some (← ofExpression colors hues name (← Expression.read text))
  else namedColor colors name text

def readAll (colors : Table (Color α)) (hues : HueTable α) (entries : List (String × String)) :
    Except (ThemeError α) (List (String × Option (Color α))) :=
  entries.mapM fun entry => do return (entry.1, ← read colors hues entry.1 entry.2)

end EditorTheme.GlobalColor
