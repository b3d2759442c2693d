import EditorTheme.Proofs.Color.Hexadecimal
import EditorTheme.Proofs.Json.Reading
import EditorTheme.Theme.PaletteJson

/-!
The palette as a JSON object. Its names are those of the colors in their order, then those of the entries about the
theme that are not among them. The entries about the theme are always right; so is every color, unless it bears the
name of one of these entries.
-/

set_option autoImplicit false
set_option relaxedAutoImplicit false

namespace EditorTheme.Theme

def reservedKeys : List String := ["_name", "_background", "_hsl"]

def themeEntries (t : Theme Float) : List (String × Json) :=
  [("_name", .text t.name), ("_background", .text t.background.name), ("_hsl", t.componentsJson)]

def colorTexts (t : Theme Float) : Table Json :=
  Table.ofList (t.colors.entries.map fun entry => (entry.1, Json.text entry.2.hex))

theorem paletteTable_eq (t : Theme Float) :
    t.paletteTable = ((t.colorTexts.insert "_name" (.text t.name)).insert "_background"
      (.text t.background.name)).insert "_hsl" t.componentsJson := by
  rw [paletteTable, Table.ofList_append]
  rfl

theorem entries_colorTexts (t : Theme Float) :
    t.colorTexts.entries = t.colors.entries.map fun entry => (entry.1, Json.text entry.2.hex) := by
  apply Table.entries_ofList
  rw [List.map_map]
  exact t.colors.distinct

theorem names_colorTexts (t : Theme Float) : t.colorTexts.names = t.colors.names := by
  rw [Table.names, entries_colorTexts, List.map_map]
  rfl

theorem find?_colorTexts (t : Theme Float) {name : String} {c : Color Float} (h : t.colors.find? name = some c) :
    t.colorTexts.find? name = some (.text c.hex) := by
  rw [← Table.mem_entries_iff, entries_colorTexts]
  exact List.mem_map.mpr ⟨(name, c), (t.colors.mem_entries_iff name c).mpr h, rfl⟩

theorem names_paletteTable (t : Theme Float) :
    t.paletteTable.names = t.colors.names ++ reservedKeys.filter (· ∉ t.colors.names) := by
  have hdistinct : (t.themeEntries.map Prod.fst).Nodup := by
    show reservedKeys.Nodup
    decide
  rw [← names_colorTexts, paletteTable, Table.ofList_append]
  exact Table.names_foldl_insert hdistinct t.colorTexts

theorem find?_paletteTable_name (t : Theme Float) : t.paletteTable.find? "_name" = some (.text t.name) := by
  rw [paletteTable_eq, Table.find?_insert_of_ne _ (by decide), Table.find?_insert_of_ne _ (by decide),
    Table.find?_insert_self]

theorem find?_paletteTable_background (t : Theme Float) :
    t.paletteTable.find? "_background" = some (.text t.background.name) := by
  rw [paletteTable_eq, Table.find?_insert_of_ne _ (by decide), Table.find?_insert_self]

theorem find?_paletteTable_hsl (t : Theme Float) : t.paletteTable.find? "_hsl" = some t.componentsJson := by
  rw [paletteTable_eq, Table.find?_insert_self]

theorem find?_paletteTable_color (t : Theme Float) {name : String} (hreserved : name ∉ reservedKeys) {c : Color Float}
    (h : t.colors.find? name = some c) : t.paletteTable.find? name = some (.text c.hex) := by
  simp only [reservedKeys, List.mem_cons, List.not_mem_nil, or_false, not_or] at hreserved
  obtain ⟨hname, hbackground, hhsl⟩ := hreserved
  rw [paletteTable_eq, Table.find?_insert_of_ne _ hhsl, Table.find?_insert_of_ne _ hbackground,
    Table.find?_insert_of_ne _ hname]
  exact find?_colorTexts t h

/-- The entries of the object that the text holds. -/
def paletteReadings (t : Theme Float) : List (String × Json.Reading) :=
  t.paletteTable.entries.map fun entry => (entry.1, entry.2.reading)

theorem read?_paletteJson (t : Theme Float) : Json.read? t.paletteJson = some (.object t.paletteReadings) := by
  rw [paletteJson, Json.read?_render, Json.reading, Json.entryReadings_eq_map]
  rfl

theorem map_fst_paletteReadings (t : Theme Float) : t.paletteReadings.map Prod.fst = t.paletteTable.names := by
  rw [paletteReadings, List.map_map]
  rfl

theorem lookup_paletteReadings (t : Theme Float) (name : String) :
    t.paletteReadings.lookup name = (t.paletteTable.find? name).map Json.reading :=
  lookup_map_snd Json.reading name t.paletteTable.entries

/-- A color is kept unless an entry about the theme takes its place; that of the name keeps it only if the theme is
named like the color's text. -/
theorem lookup_paletteReadings_color (t : Theme Float) {name : String} {c : Color Float}
    (h : t.colors.find? name = some c) :
    t.paletteReadings.lookup name = some (.text c.hex) ↔
      name ≠ "_background" ∧ name ≠ "_hsl" ∧ (name = "_name" → c.hex = t.name) := by
  rw [lookup_paletteReadings]
  by_cases hname : name = "_name"
  · subst hname
    rw [find?_paletteTable_name]
    simp [Json.reading, eq_comm]
  by_cases hbackground : name = "_background"
  · subst hbackground
    have hne : c.hex ≠ t.background.name := by
      apply Rgb.hex_ne_of_head
      cases t.background <;> decide
    rw [find?_paletteTable_background]
    simp [Json.reading, hne.symm]
  by_cases hhsl : name = "_hsl"
  · subst hhsl
    rw [find?_paletteTable_hsl]
    simp [Json.reading, componentsJson]
  have hreserved : name ∉ reservedKeys := by simp [reservedKeys, hname, hbackground, hhsl]
  rw [find?_paletteTable_color t hreserved h]
  simp [Json.reading, hname, hbackground, hhsl]

/-- The text holds an object with the colors first, in their order, and with the right entries about the theme. A color
is lost exactly if one of these takes its place. -/
theorem paletteJson_keeps_unless_reserved (t : Theme Float) :
    ∃ entries, Json.read? t.paletteJson = some (.object entries) ∧
      entries.map Prod.fst = t.colors.names ++ reservedKeys.filter (· ∉ t.colors.names) ∧
      entries.lookup "_name" = some (.text t.name) ∧
      entries.lookup "_background" = some (.text t.background.name) ∧
      ∀ name c, t.colors.find? name = some c →
        (entries.lookup name = some (.text c.hex) ↔
          name ≠ "_background" ∧ name ≠ "_hsl" ∧ (name = "_name" → c.hex = t.name)) := by
  refine ⟨t.paletteReadings, read?_paletteJson t, ?_, ?_, ?_, fun name c h => lookup_paletteReadings_color t h⟩
  · rw [map_fst_paletteReadings, names_paletteTable]
  · rw [lookup_paletteReadings, find?_paletteTable_name]
    rfl
  · rw [lookup_paletteReadings, find?_paletteTable_background]
    rfl

private def shaded : Theme Float where
  name := "shaded"
  background := .dark
  colors := Table.empty.insert "_hsl" ⟨220, 0.2, 0.12⟩
  highlights := []
  globals := []

theorem paletteJson_loses_hsl :
    ∃ c entries, shaded.colors.find? "_hsl" = some c ∧ Json.read? shaded.paletteJson = some (.object entries) ∧
      entries.lookup "_hsl" ≠ some (.text c.hex) := by
  refine ⟨⟨220, 0.2, 0.12⟩, shaded.paletteReadings, Table.find?_insert_self _ _ _, read?_paletteJson shaded, ?_⟩
  rw [lookup_paletteReadings, find?_paletteTable_hsl]
  simp [Json.reading, componentsJson]

end EditorTheme.Theme
