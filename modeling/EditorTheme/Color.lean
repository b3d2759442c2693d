import EditorTheme.Scalar
import EditorTheme.ThemeError

/-!
Colors by hue, saturation and lightness, and the operations that theme expressions are made of. A color in
range has its hue in degrees from 0 up to 360, 360 excluded, and the other components from 0 to 1.
-/

set_option autoImplicit false
set_option relaxedAutoImplicit false

namespace EditorTheme

variable {α : Type} [Scalar α]

/-- A color by its components. The components are not confined to their ranges; `Color.make` confines them. -/
structure Color (α : Type) where
  hue : α
  saturation : α
  lightness : α

def clamp (x : α) : α := Scalar.larger 0 (Scalar.smaller 1 x)

/-- A hue in degrees brought into the range from 0 up to 360. A remainder that rounds to 360 becomes 0. -/
def wrapHue (hue : α) : α :=
  let wrapped := Scalar.remainder hue 360
  if 360 ≤ wrapped then 0 else wrapped

namespace Color

/-- The color of any finite components: the hue wrapped, the others clamped. -/
def make (hue saturation lightness : α) : Except (ThemeError α) (Color α) :=
  if Scalar.isFinite hue && Scalar.isFinite saturation && Scalar.isFinite lightness then
    .ok ⟨wrapHue hue, clamp saturation, clamp lightness⟩
  else .error (.notFinite hue saturation lightness)

/-- Shifts saturation and lightness, each clamped on its own. -/
def adjust (c : Color α) (saturation lightness : α) : Color α :=
  ⟨c.hue, clamp (c.saturation + saturation), clamp (c.lightness + lightness)⟩

/-- Interpolates component by component: weight 1 gives the first color, weight 0 the second. The hue goes
along the numbers, not along the shorter arc. -/
def mix (a b : Color α) (weight : α) : Except (ThemeError α) (Color α) :=
  let other := 1 - weight
  make (weight * a.hue + other * b.hue) (weight * a.saturation + other * b.saturation)
    (weight * a.lightness + other * b.lightness)

end Color

end EditorTheme
