import EditorTheme.Color
import EditorTheme.Color.Rgb

/-!
Conversion between the two ways to give a color. On the way to channels a hue is wrapped and the other
components are clamped first, so that every color has a hexadecimal text.
-/

set_option autoImplicit false
set_option relaxedAutoImplicit false

namespace EditorTheme

variable {α : Type} [Scalar α]

namespace Color

/-- The hue in turns of a color with distinct extreme channels, from the channels' distances to the largest
one as parts of the range. The sector is that of the first largest channel. -/
def hueTurns (r g b high range : α) : α :=
  let fromRed := (high - r) / range
  let fromGreen := (high - g) / range
  let fromBlue := (high - b) / range
  let sixths :=
    if r == high then fromBlue - fromGreen
    else if g == high then 2 + fromRed - fromBlue
    else 4 + fromGreen - fromRed
  Scalar.remainder (sixths / 6) 1

/-- Hue in turns, saturation and lightness of channels that run from 0 to 1. -/
def ofUnitChannels (r g b : α) : Color α :=
  let high := Scalar.larger (Scalar.larger r g) b
  let low := Scalar.smaller (Scalar.smaller r g) b
  let sum := high + low
  let range := high - low
  let lightness := sum / 2
  if low == high then ⟨0, 0, lightness⟩
  else
    let saturation := if lightness ≤ 0.5 then range / sum else range / (2 - sum)
    ⟨hueTurns r g b high range, saturation, lightness⟩

def ofChannels (r g b : α) : Color α :=
  let c := ofUnitChannels (r / 255) (g / 255) (b / 255)
  ⟨wrapHue (c.hue * 360), c.saturation, c.lightness⟩

/-- One channel, from 0 to 1, at a distance from the hue: it falls from `high` to `low` over a third of a turn
on either side and keeps its extremes between. -/
def channelAt (low high turns : α) : α :=
  let t := Scalar.remainder turns 1
  if t < 1 / 6 then low + (high - low) * t * 6
  else if t < 0.5 then high
  else if t < 2 / 3 then low + (high - low) * (2 / 3 - t) * 6
  else low

def unitChannels (turns saturation lightness : α) : α × α × α :=
  if saturation == 0 then (lightness, lightness, lightness)
  else
    let high :=
      if lightness ≤ 0.5 then lightness * (1 + saturation)
      else lightness + saturation - lightness * saturation
    let low := 2 * lightness - high
    (channelAt low high (turns + 1 / 3), channelAt low high turns, channelAt low high (turns - 1 / 3))

/-- The channels of a color from 0 to 255, before they are rounded. -/
def channels (c : Color α) : α × α × α :=
  let (r, g, b) := unitChannels (wrapHue c.hue / 360) (clamp c.saturation) (clamp c.lightness)
  (r * 255, g * 255, b * 255)

/-- The channels of a color, rounded with ties to even. -/
def toRgb (c : Color α) : Rgb :=
  let (r, g, b) := c.channels
  ⟨Scalar.nearestInt r, Scalar.nearestInt g, Scalar.nearestInt b⟩

def hex (c : Color α) : String := c.toRgb.hex

def componentsOfRgb (c : Rgb) : Color α :=
  ofChannels (Scalar.ofInt c.red) (Scalar.ofInt c.green) (Scalar.ofInt c.blue)

def ofRgb (c : Rgb) : Except (ThemeError α) (Color α) :=
  let c := componentsOfRgb c
  make c.hue c.saturation c.lightness

def ofHex (text : Value) : Except (Failure α) (Color α) := do Theme.fault (ofRgb (← Rgb.ofValue text))

end Color

end EditorTheme
