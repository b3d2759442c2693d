import EditorTheme.Palette.Order

/-!
Computing the colors of a palette: references are checked, the names are put in order, each expression is
evaluated with the colors before it, and the colors are listed as they were declared.
-/

set_option autoImplicit false
set_option relaxedAutoImplicit false

namespace EditorTheme

variable {α : Type}

namespace Palette

variable [Scalar α]

def checkedOrder (p : Palette α) (hues : HueTable α) : Except (ThemeError α) (List String) := do
  p.checkReferences hues
  p.order.mapError .cycle

/-- Adds the color of a name to the colors computed so far. -/
def computeNext (p : Palette α) (hues : HueTable α) (colors : Table (Color α)) (name : String) :
    Except (ThemeError α) (Table (Color α)) :=
  match p.find? name with
  | some e => do return colors.insert name (← e.eval hues colors)
  | none => .ok colors

/-- The colors of a palette, in the order of declaration. -/
def evaluate (p : Palette α) (hues : HueTable α) : Except (ThemeError α) (Table (Color α)) := do
  let order ← p.checkedOrder hues
  let colors ← order.foldlM (p.computeNext hues) Table.empty
  return colors.select p.names p.distinct

def resolve (entries : List (String × String)) (hues : HueTable α) :
    Except (ThemeError α) (Table (Color α)) := do
  (← parse entries).evaluate hues

end Palette

end EditorTheme
