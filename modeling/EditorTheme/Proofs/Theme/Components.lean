import EditorTheme.Proofs.Decimal.Places
import EditorTheme.Proofs.Theme.PaletteJson

/-!
The components of the colors in the palette object. They are rounded after the hue has been wrapped: of a color in range
they are in range again, unless the hue is at least 359.995, which is rounded to a full turn.
-/

set_option autoImplicit false
set_option relaxedAutoImplicit false

namespace EditorTheme

def Color.rounded (c : Color Float) : Color Float :=
  ⟨Decimal.roundPlaces 2 c.hue, Decimal.roundPlaces 4 c.saturation, Decimal.roundPlaces 4 c.lightness⟩

theorem Color.InRange.rounded {c : Color Float} (h : c.InRange) (hbelow : Rational.ofDouble c.hue < 359.995) :
    c.rounded.InRange where
  hue := Decimal.roundPlaces_turn_of_lt h.hue ((Decimal.scaled_turn_iff h.hue).mpr hbelow)
  saturation := Decimal.roundPlaces_unit h.saturation (by decide)
  lightness := Decimal.roundPlaces_unit h.lightness (by decide)

namespace Theme

def componentReadings (t : Theme Float) : List (String × Json.Reading) :=
  t.colors.entries.map fun entry => (entry.1, .array ((roundedComponents entry.2).map fun x => (Json.number x).reading))

theorem reading_componentsJson (t : Theme Float) : t.componentsJson.reading = .object t.componentReadings := by
  rw [componentsJson, Json.reading, Json.entryReadings_eq_map, List.map_map]
  rfl

theorem lookup_paletteReadings_components (t : Theme Float) :
    t.paletteReadings.lookup "_hsl" = some (.object t.componentReadings) := by
  rw [lookup_paletteReadings, find?_paletteTable_hsl, Option.map_some, reading_componentsJson]

theorem map_fst_componentReadings (t : Theme Float) : t.componentReadings.map Prod.fst = t.colors.names := by
  rw [componentReadings, List.map_map]
  rfl

theorem lookup_componentReadings (t : Theme Float) {name : String} {c : Color Float}
    (h : t.colors.find? name = some c) : t.componentReadings.lookup name =
      some (.array ((roundedComponents c).map fun x => (Json.number x).reading)) := by
  have hlookup := lookup_map_snd (fun c : Color Float => Json.Reading.array
    ((roundedComponents c).map fun x => (Json.number x).reading)) name t.colors.entries
  have hfound : t.colors.entries.lookup name = some c := h
  rw [hfound] at hlookup
  exact hlookup

/-- The object of components has the colors in their order, each with the three numbers of its rounded color. That one is
in range if the color is, but for a hue that is at least 359.995: this is rounded to the full turn. -/
theorem componentsJson_inRange_unless_rounded_up {t : Theme Float} (h : ColorsInRange t.colors) :
    ∃ entries components, Json.read? t.paletteJson = some (.object entries) ∧
      entries.lookup "_hsl" = some (.object components) ∧ components.map Prod.fst = t.colors.names ∧
      ∀ name c, t.colors.find? name = some c →
        components.lookup name = some (.array [(Json.number c.rounded.hue).reading,
          (Json.number c.rounded.saturation).reading, (Json.number c.rounded.lightness).reading]) ∧
        (Rational.ofDouble c.hue < 359.995 → c.rounded.InRange) ∧
        (359.995 ≤ Rational.ofDouble c.hue → c.rounded.hue = 360 ∧
          (0 ≤ c.rounded.saturation ∧ c.rounded.saturation ≤ 1) ∧
          0 ≤ c.rounded.lightness ∧ c.rounded.lightness ≤ 1) := by
  refine ⟨t.paletteReadings, t.componentReadings, read?_paletteJson t, lookup_paletteReadings_components t,
    map_fst_componentReadings t, fun name c hc => ⟨lookup_componentReadings t hc, (h name c hc).rounded, ?_⟩⟩
  intro hreached
  have hin := h name c hc
  have hscaled : 36000 ≤ Decimal.scaled 2 c.hue :=
    not_lt.mp fun hlt => absurd ((Decimal.scaled_turn_iff hin.hue).mp hlt) (not_lt.mpr hreached)
  exact ⟨Decimal.roundPlaces_turn_of_le hin.hue hscaled, Decimal.roundPlaces_unit hin.saturation (by decide),
    Decimal.roundPlaces_unit hin.lightness (by decide)⟩

section Witness

private def twilight : Theme Float where
  name := "twilight"
  background := .dark
  colors := (Table.empty.insert "early" ⟨220, 0.2, 0.12⟩).insert "late" ⟨359.996, 0.5, 0.5⟩
  highlights := []
  globals := []

private theorem twilight_colorsInRange : ColorsInRange twilight.colors := by
  have hearly : (⟨220, 0.2, 0.12⟩ : Color Float).InRange := ⟨by decide +kernel, by decide +kernel, by decide +kernel⟩
  have hlate : (⟨359.996, 0.5, 0.5⟩ : Color Float).InRange := ⟨by decide +kernel, by decide +kernel, by decide +kernel⟩
  exact (ColorsInRange.empty.insert "early" hearly).insert "late" hlate

theorem componentsJson_inRange_unless_rounded_up_twilight : ColorsInRange twilight.colors ∧
    (∃ c, twilight.colors.find? "early" = some c ∧ c.rounded.InRange) ∧
    ∃ c, twilight.colors.find? "late" = some c ∧ c.rounded.hue = 360 ∧ c.rounded.saturation ≤ 1 := by
  obtain ⟨entries, components, -, -, -, hcolors⟩ := componentsJson_inRange_unless_rounded_up twilight_colorsInRange
  have hearly : twilight.colors.find? "early" = some ⟨220, 0.2, 0.12⟩ := rfl
  have hlate : twilight.colors.find? "late" = some ⟨359.996, 0.5, 0.5⟩ := rfl
  obtain ⟨-, hbelow, -⟩ := hcolors "early" _ hearly
  obtain ⟨-, -, hreached⟩ := hcolors "late" _ hlate
  obtain ⟨hhue, hsaturation, -⟩ := hreached (by decide +kernel)
  exact ⟨twilight_colorsInRange, ⟨_, hearly, hbelow (by decide +kernel)⟩, _, hlate, hhue, hsaturation.2⟩

/-- A hue of 359.996 degrees is in range, and it is written as 360.0. -/
theorem componentsJson_reaches_turn : ColorsInRange twilight.colors ∧
    twilight.colors.find? "late" = some ⟨359.996, 0.5, 0.5⟩ ∧
    ¬ (⟨359.996, 0.5, 0.5⟩ : Color Float).rounded.hue < 360 ∧
    ∃ entries components, Json.read? twilight.paletteJson = some (.object entries) ∧
      entries.lookup "_hsl" = some (.object components) ∧
      components.lookup "late" = some (.array [.number "360.0".toList, .number "0.5".toList, .number "0.5".toList]) := by
  have hlate : twilight.colors.find? "late" = some ⟨359.996, 0.5, 0.5⟩ := rfl
  have hhue : Json.numberLayout.render (Decimal.roundPlaces 2 359.996) = "360.0" := by decide +kernel
  have hhalf : Json.numberLayout.render (Decimal.roundPlaces 4 0.5) = "0.5" := by decide +kernel
  refine ⟨twilight_colorsInRange, hlate, by decide +kernel, twilight.paletteReadings,
    twilight.componentReadings, read?_paletteJson twilight, lookup_paletteReadings_components twilight, ?_⟩
  rw [lookup_componentReadings twilight hlate, ← hhue, ← hhalf]
  rfl

end Witness

end Theme

end EditorTheme
