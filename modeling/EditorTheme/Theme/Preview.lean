import EditorTheme.Color.Contrast
import EditorTheme.Decimal.Layout
import EditorTheme.Theme

/-!
The preview of a theme: a table with a row for every color. The contrast with the background of normal text
is shown where that background is set.
-/

set_option autoImplicit false
set_option relaxedAutoImplicit false

namespace EditorTheme

inductive Cell where
  | text (s : String)
  /-- Blank text on a background of the given color. -/
  | swatch (s color : String)
  deriving Repr, DecidableEq

structure Preview where
  title : String
  columns : List String
  rows : List (List Cell)
  deriving Repr, DecidableEq

namespace Theme

def padLeft (width : Nat) (s : String) : String :=
  String.ofList (List.replicate (width - s.length) ' ') ++ s

/-- The components of a color for reading: the hue with one place, the others with two. -/
def componentsText (c : Color Float) : String :=
  padLeft 6 (Decimal.fixed 1 c.hue) ++ " " ++ Decimal.fixed 2 c.saturation ++ " " ++ Decimal.fixed 2 c.lightness

def contrastText (c background : Color Float) : String :=
  Decimal.fixed 1 (c.contrast displayPower background) ++ ":1"

def previewRow (background : Option (Color Float)) (name : String) (c : Color Float) : List Cell :=
  [.text name, .swatch "      " c.hex, .text c.hex, .text (componentsText c)] ++
    (background.map fun b => Cell.text (contrastText c b)).toList

def preview (t : Theme Float) : Preview where
  title := t.name ++ " (" ++ t.background.title ++ ")"
  columns := ["Color", "Swatch", "Hex", "HSL"] ++ (t.normalBackground?.map fun _ => "Contrast").toList
  rows := t.colors.entries.map fun entry => previewRow t.normalBackground? entry.1 entry.2

end Theme

end EditorTheme
