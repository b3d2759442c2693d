import EditorTheme.Color.Conversion
import EditorTheme.Double
import EditorTheme.Json
import EditorTheme.Theme

/-!
The colors of a theme as JSON. One object holds the hexadecimal text of every color and three entries about
the theme, which take the place of colors of the same names.
-/

set_option autoImplicit false
set_option relaxedAutoImplicit false

namespace EditorTheme.Theme

/-- The components of a color, the hue rounded to two places and the others to four. -/
def roundedComponents (c : Color Float) : List Float :=
  [Decimal.roundPlaces 2 c.hue, Decimal.roundPlaces 4 c.saturation, Decimal.roundPlaces 4 c.lightness]

def componentsJson (t : Theme Float) : Json :=
  .object (t.colors.entries.map fun entry => (entry.1, .array ((roundedComponents entry.2).map .number)))

/-- The entries of the object: the colors, then the entries about the theme. -/
def paletteTable (t : Theme Float) : Table Json :=
  Table.ofList (t.colors.entries.map (fun entry => (entry.1, Json.text entry.2.hex)) ++
    [("_name", .text t.name), ("_background", .text t.background.name), ("_hsl", t.componentsJson)])

def paletteJson (t : Theme Float) : String := (Json.object t.paletteTable.entries).render

end EditorTheme.Theme
