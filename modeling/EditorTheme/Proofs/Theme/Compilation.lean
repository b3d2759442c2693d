import EditorTheme.Proofs.Failure
import EditorTheme.Rational
import EditorTheme.Theme.Compilation

/-!
The stages of a compilation that succeeds: each stage reads its section of the document with what the stages before it
have found, and what it finds stands in the theme.
-/

set_option autoImplicit false
set_option relaxedAutoImplicit false

namespace EditorTheme

variable {α : Type}

theorem forall₂_of_readEntries {β γ ε : Type} {read : String → β → Except ε γ} {entries : List (String × β)}
    {results : List (String × γ)}
    (h : (entries.mapM fun entry => do return (entry.1, ← read entry.1 entry.2)) = .ok results) :
    List.Forall₂ (fun entry result => entry.1 = result.1 ∧ read entry.1 entry.2 = .ok result.2) entries results := by
  refine (forall₂_of_mapM_ok h).imp ?_
  intro entry result hstep
  obtain ⟨found, hfound, hpure⟩ := bind_eq_ok.mp hstep
  obtain rfl := pure_eq_ok.mp hpure
  exact ⟨rfl, hfound⟩

theorem Highlight.forall₂_of_readAll {colors : Table (Color α)} {entries : List (String × String)}
    {results : List (String × Highlight α)} (h : readAll colors entries = .ok results) :
    List.Forall₂ (fun entry result => entry.1 = result.1 ∧ read colors entry.1 entry.2 = .ok result.2)
      entries results := forall₂_of_readEntries h

theorem GlobalColor.forall₂_of_readAll [Scalar α] {colors : Table (Color α)} {hues : HueTable α}
    {entries : List (String × String)} {results : List (String × Option (Color α))}
    (h : readAll colors hues entries = .ok results) :
    List.Forall₂ (fun entry result => entry.1 = result.1 ∧ read colors hues entry.1 entry.2 = .ok result.2)
      entries results := forall₂_of_readEntries h

namespace Theme

variable [Scalar α]

/-- Every stage of a compilation has found the part of the theme that it is for. -/
structure Stages (d : ThemeDocument) (hueTable : HueTable α) (t : Theme α) : Prop where
  name : t.name = d.name
  background : (Background.read d.background : Except (ThemeError α) Background) = .ok t.background
  hues : HueTable.ofPairs d.hues = .ok hueTable
  colors : Palette.resolve d.colors hueTable = .ok t.colors
  highlights : Highlight.readAll t.colors d.highlights = .ok t.highlights
  globals : GlobalColor.readAll t.colors hueTable d.globals = .ok t.globals

theorem compile_eq_ok_iff {d : ThemeDocument} {t : Theme α} : compile d = .ok t ↔ ∃ hues, Stages d hues t := by
  unfold compile
  simp only [bind_eq_ok, fault_eq_ok_iff, pure_eq_ok]
  constructor
  · rintro ⟨background, hbackground, hues, hhues, colors, hcolors, highlights, hhighlights, globals, hglobals, rfl⟩
    exact ⟨hues, rfl, hbackground, hhues, hcolors, hhighlights, hglobals⟩
  · rintro ⟨hues, h⟩
    refine ⟨t.background, h.background, hues, h.hues, t.colors, h.colors, t.highlights, h.highlights, t.globals,
      h.globals, ?_⟩
    rw [← h.name]

/-- A document with every form of expression, of highlight value and of global. -/
def dusk : ThemeDocument where
  name := "dusk"
  background := "dark"
  colors := [("base", "hsl($sea, 0.5, 0.4)"), ("lit", "lighten(base, 0.75)"), ("paper", "#FFEEDD"),
    ("far", "mix(lit, paper, -1.5)"), ("same", "far")]
  hues := [("sea", .number (-150.0))]
  highlights := [("Normal", "lit base"), ("Comment", "far - ib"), ("SpellBad", " - - cuc  same"),
    ("Note", "link: Comment")]
  globals := [("accent", "far"), ("shade", "darken(far, 2)"), ("none", "-")]

theorem dusk_compiles : ∃ t : Theme Float, compile dusk = .ok t := by
  have hok : (compile dusk : Except (Failure Float) (Theme Float)).isOk = true := by decide +kernel
  exact exists_ok_of_isOk hok

theorem dusk_compiles_exactly : ∃ t : Theme Rat, compile dusk = .ok t := by
  have hok : (compile dusk : Except (Failure Rat) (Theme Rat)).isOk = true := by decide +kernel
  exact exists_ok_of_isOk hok

end Theme

end EditorTheme
