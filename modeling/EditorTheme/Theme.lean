import EditorTheme.Background
import EditorTheme.Highlight

/-!
Themes whose colors are computed, ready to be written out.
-/

set_option autoImplicit false
set_option relaxedAutoImplicit false

namespace EditorTheme

structure Theme (α : Type) where
  name : String
  background : Background
  colors : Table (Color α)
  highlights : List (String × Highlight α)
  globals : List (String × Option (Color α))

/-- The background color of the first styled `Normal` group; that group may leave it unset. -/
def Theme.normalBackground? {α : Type} (t : Theme α) : Option (Color α) :=
  (t.highlights.findSome? fun entry =>
    match entry.2 with
    | .styled s => if entry.1 = "Normal" then some s.background else none
    | .link _ => none).join

end EditorTheme
