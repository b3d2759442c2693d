import EditorTheme.Color.Conversion
import EditorTheme.Double

/-!
Relative luminance and the contrast of two colors. The curve of a channel is a power above a small threshold;
the power is a parameter, so that the bounds of contrast rest on its monotony alone.
-/

set_option autoImplicit false
set_option relaxedAutoImplicit false

namespace EditorTheme

variable {α : Type} [Scalar α]

def linearChannel (power : α → α) (channel : Int) : α :=
  let c := Scalar.ofInt channel / 255
  if c ≤ 0.03928 then c / 12.92 else power ((c + 0.055) / 1.055)

/-- The luminance of a color relative to white. -/
def Rgb.luminance (power : α → α) (c : Rgb) : α :=
  0.2126 * linearChannel power c.red + 0.7152 * linearChannel power c.green +
    0.0722 * linearChannel power c.blue

/-- The contrast of two colors: the lighter over the darker, each raised by a twentieth. -/
def Color.contrast (power : α → α) (a b : Color α) : α :=
  let x := a.toRgb.luminance power
  let y := b.toRgb.luminance power
  (Scalar.larger x y + 0.05) / (Scalar.smaller x y + 0.05)

def displayPower (x : Float) : Float := x.pow 2.4

end EditorTheme
