import EditorTheme.Proofs.Double.Order
import EditorTheme.Proofs.Highlight
import EditorTheme.Proofs.Theme.Compilation

/-!
Every color of a compiled theme is in range. Shifting a color trusts its base, so the range is carried along the whole
computation of the palette, from color to color, and from there to the groups and the globals.
-/

set_option autoImplicit false
set_option relaxedAutoImplicit false

namespace EditorTheme

variable {α : Type} [Scalar α]

theorem ColorsInRange.select {colors : Table (Color α)} (h : ColorsInRange colors)
    {names : List String} (distinct : names.Nodup) : ColorsInRange (colors.select names distinct) := by
  intro name c hfound
  have hselected : name ∈ (colors.select names distinct).names := (Table.mem_names_iff _ name).mpr ⟨c, hfound⟩
  have hname : name ∈ names := (Table.map_fst_filterMap_sublist colors.find? names).subset hselected
  rw [colors.find?_select distinct hname] at hfound
  exact h name c hfound

namespace Palette

theorem colorsInRange_of_computeNext [OrderedScalar α] {p : Palette α} {hues : HueTable α}
    {colors next : Table (Color α)} {name : String} (hcolors : ColorsInRange colors)
    (h : p.computeNext hues colors name = .ok next) : ColorsInRange next := by
  unfold computeNext at h
  split at h
  · obtain ⟨c, hc, hinsert⟩ := bind_eq_ok.mp h
    obtain rfl := pure_eq_ok.mp hinsert
    exact hcolors.insert name (Expression.inRange_of_eval hcolors hc)
  · obtain rfl := Except.ok.inj h
    exact hcolors

theorem colorsInRange_of_resolve [OrderedScalar α] {entries : List (String × String)} {hues : HueTable α}
    {colors : Table (Color α)} (h : resolve entries hues = .ok colors) : ColorsInRange colors := by
  obtain ⟨p, -, hevaluate⟩ := bind_eq_ok.mp h
  obtain ⟨order, -, hcompute⟩ := bind_eq_ok.mp hevaluate
  obtain ⟨computed, hcomputed, hselect⟩ := bind_eq_ok.mp hcompute
  obtain rfl := pure_eq_ok.mp hselect
  have hcolors : ColorsInRange computed :=
    foldlM_invariant (fun _ _ _ _ => colorsInRange_of_computeNext) hcomputed ColorsInRange.empty
  exact hcolors.select p.distinct

end Palette

/-- A color that may be unset is in range where it is set. -/
def SlotInRange (slot : Option (Color α)) : Prop := ∀ c, slot = some c → c.InRange

theorem ColorField.slotInRange {colors : Table (Color α)} (hcolors : ColorsInRange colors) {name : String}
    {slot : Option (Color α)} (h : ColorField colors name slot) : SlotInRange slot := by
  rintro c rfl
  cases h with
  | named _ hcolor => exact hcolors name c hcolor

namespace Highlight

/-- The colors of a group are in range; a link has none. -/
def InRange : Highlight α → Prop
  | .link _ => True
  | .styled s => SlotInRange s.foreground ∧ SlotInRange s.background ∧ SlotInRange s.special

theorem inRange_of_read {colors : Table (Color α)} (hcolors : ColorsInRange colors) {group value : String}
    {h : Highlight α} (hread : read colors group value = .ok h) : h.InRange := by
  cases read_eq_iff.mp hread with
  | link => trivial
  | styled _ _ _ hforeground hbackground _ hspecial =>
    exact ⟨hforeground.slotInRange hcolors, hbackground.slotInRange hcolors, hspecial.slotInRange hcolors⟩

end Highlight

theorem GlobalColor.slotInRange_of_read [OrderedScalar α] {colors : Table (Color α)} (hcolors : ColorsInRange colors)
    {hues : HueTable α} {name value : String} {slot : Option (Color α)} (h : read colors hues name value = .ok slot) :
    SlotInRange slot := by
  unfold read at h
  simp only at h
  split at h
  · obtain ⟨e, -, hafter⟩ := bind_eq_ok.mp h
    obtain ⟨color, hcolor, hpure⟩ := bind_eq_ok.mp hafter
    obtain rfl := pure_eq_ok.mp hpure
    unfold ofExpression at hcolor
    split at hcolor
    · cases hcolor
    · rintro _ ⟨⟩
      exact Expression.inRange_of_eval hcolors hcolor
  · exact (namedColor_eq_ok_iff.mp h).slotInRange hcolors

namespace Theme

/-- Every color of a theme is in range, wherever it stands. -/
structure InRange (t : Theme α) : Prop where
  colors : ColorsInRange t.colors
  highlights : ∀ entry ∈ t.highlights, entry.2.InRange
  globals : ∀ entry ∈ t.globals, SlotInRange entry.2

/-- Whatever chain of expressions made it, every color of a compiled theme is in range. -/
theorem compile_inRange [OrderedScalar α] {d : ThemeDocument} {t : Theme α} (h : compile d = .ok t) : t.InRange := by
  obtain ⟨hues, hstages⟩ := compile_eq_ok_iff.mp h
  have hcolors : ColorsInRange t.colors := Palette.colorsInRange_of_resolve hstages.colors
  refine ⟨hcolors, ?_, ?_⟩
  · intro entry hentry
    obtain ⟨line, hread⟩ := exists_of_forall₂ (Highlight.forall₂_of_readAll hstages.highlights) hentry
    exact Highlight.inRange_of_read hcolors hread.2
  · intro entry hentry
    obtain ⟨line, hread⟩ := exists_of_forall₂ (GlobalColor.forall₂_of_readAll hstages.globals) hentry
    exact GlobalColor.slotInRange_of_read hcolors hread.2

theorem compile_inRange_dusk :
    (∃ t : Theme Float, compile dusk = .ok t ∧ t.InRange) ∧ ∃ t : Theme Rat, compile dusk = .ok t ∧ t.InRange := by
  obtain ⟨t, ht⟩ := dusk_compiles
  obtain ⟨u, hu⟩ := dusk_compiles_exactly
  exact ⟨⟨t, ht, compile_inRange ht⟩, u, hu, compile_inRange hu⟩

end Theme

end EditorTheme
