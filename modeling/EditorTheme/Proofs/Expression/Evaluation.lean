import EditorTheme.Expression
import EditorTheme.Proofs.Sequencing

/-!
What the color of an expression depends on. Evaluation asks for the hues and colors that the expression names
and for no others, so two settings that agree on those give the same result, and where all of them are given
only the range of the numbers can still be at fault.
-/

set_option autoImplicit false
set_option relaxedAutoImplicit false

namespace EditorTheme

variable {α : Type}

namespace HueTable

theorem lookup_congr {hues others : HueTable α} {name : String} (h : hues.find? name = others.find? name) :
    hues.lookup name = others.lookup name := by
  unfold lookup
  rw [h]

theorem lookup_eq_ok_iff (hues : HueTable α) (name : String) (hue : α) :
    hues.lookup name = .ok hue ↔ hues.find? name = some hue := by
  unfold lookup
  cases hues.find? name <;> simp

theorem lookup_of_not_mem {hues : HueTable α} {name : String} (h : name ∉ hues.names) :
    hues.lookup name = .error (.unknownHue name) := by
  rw [lookup, Table.find?_eq_none h]

end HueTable

namespace Expression

theorem lookupColor_congr {colors others : Table (Color α)} {name : String}
    (h : colors.find? name = others.find? name) : lookupColor colors name = lookupColor others name := by
  unfold lookupColor
  rw [h]

theorem lookupColor_eq_ok_iff (colors : Table (Color α)) (name : String) (c : Color α) :
    lookupColor colors name = .ok c ↔ colors.find? name = some c := by
  unfold lookupColor
  cases colors.find? name <;> simp

theorem lookupColor_of_mem {colors : Table (Color α)} {name : String} (h : name ∈ colors.names) :
    ∃ c, lookupColor colors name = .ok c := by
  obtain ⟨c, hc⟩ := (colors.mem_names_iff name).mp h
  exact ⟨c, (lookupColor_eq_ok_iff colors name c).mpr hc⟩

theorem lookupColor_of_not_mem {colors : Table (Color α)} {name : String} (h : name ∉ colors.names) :
    lookupColor colors name = .error (.unresolved name) := by
  rw [lookupColor, Table.find?_eq_none h]

/-- No form of expression refers both to a color and to a hue. -/
theorem hueReferences_eq_nil {e : Expression α} {reference : String} (h : reference ∈ e.references) :
    e.hueReferences = [] := by
  cases e with
  | hsl hue s l => exact absurd h List.not_mem_nil
  | literal c => rfl
  | adjust base s l => rfl
  | mix first second weight => rfl
  | «alias» name => rfl

variable [Scalar α]

theorem eval_congr {hues otherHues : HueTable α} {colors others : Table (Color α)} {e : Expression α}
    (hhues : ∀ hue ∈ e.hueReferences, hues.find? hue = otherHues.find? hue)
    (hcolors : ∀ name ∈ e.references, colors.find? name = others.find? name) :
    e.eval hues colors = e.eval otherHues others := by
  cases e with
  | literal c => rfl
  | hsl hue s l =>
    cases hue with
    | degrees hue => rfl
    | named name =>
      have hhue : hues.lookup name = otherHues.lookup name :=
        HueTable.lookup_congr (hhues name (by simp [hueReferences]))
      simp only [eval, HueTerm.eval, hhue]
  | adjust base s l =>
    have hbase : lookupColor colors base = lookupColor others base :=
      lookupColor_congr (hcolors base (by simp [references]))
    simp only [eval, hbase]
  | mix first second weight =>
    have hfirst : lookupColor colors first = lookupColor others first :=
      lookupColor_congr (hcolors first (by simp [references]))
    have hsecond : lookupColor colors second = lookupColor others second :=
      lookupColor_congr (hcolors second (by simp [references]))
    simp only [eval, hfirst, hsecond]
  | «alias» name =>
    exact lookupColor_congr (hcolors name (by simp [references]))

theorem eval_of_unknownHue {hues : HueTable α} {e : Expression α} {hue : String} (h : hue ∈ e.hueReferences)
    (hmissing : hue ∉ hues.names) (colors : Table (Color α)) : e.eval hues colors = .error (.unknownHue hue) := by
  cases e with
  | hsl term s l =>
    cases term with
    | degrees x => exact absurd h List.not_mem_nil
    | named name =>
      obtain rfl : hue = name := List.mem_singleton.mp h
      exact bind_of_error (HueTable.lookup_of_not_mem hmissing) _
  | literal c => exact absurd h List.not_mem_nil
  | adjust base s l => exact absurd h List.not_mem_nil
  | mix first second weight => exact absurd h List.not_mem_nil
  | «alias» name => exact absurd h List.not_mem_nil

theorem eval_of_unresolved {colors : Table (Color α)} {e : Expression α} {name : String}
    (h : FirstFailing (· ∈ colors.names) e.references name) (hues : HueTable α) :
    e.eval hues colors = .error (.unresolved name) := by
  cases e with
  | literal c => exact absurd h (not_firstFailing_nil name)
  | hsl hue s l => exact absurd h (not_firstFailing_nil name)
  | adjust base s l =>
    obtain ⟨rfl, hmissing⟩ | ⟨-, hnone⟩ := firstFailing_cons_iff.mp h
    · exact bind_of_error (lookupColor_of_not_mem hmissing) _
    · exact absurd hnone (not_firstFailing_nil name)
  | mix first second weight =>
    obtain ⟨rfl, hmissing⟩ | ⟨hfirst, hlater⟩ := firstFailing_cons_iff.mp h
    · exact bind_of_error (lookupColor_of_not_mem hmissing) _
    · obtain ⟨rfl, hmissing⟩ | ⟨-, hnone⟩ := firstFailing_cons_iff.mp hlater
      · obtain ⟨a, ha⟩ := lookupColor_of_mem hfirst
        exact (bind_of_ok ha _).trans (bind_of_error (lookupColor_of_not_mem hmissing) _)
      · exact absurd hnone (not_firstFailing_nil name)
  | «alias» target =>
    obtain ⟨rfl, hmissing⟩ | ⟨-, hnone⟩ := firstFailing_cons_iff.mp h
    · exact lookupColor_of_not_mem hmissing
    · exact absurd hnone (not_firstFailing_nil name)

theorem mem_names_of_eval_ok {hues : HueTable α} {colors : Table (Color α)} {e : Expression α} {c : Color α}
    (h : e.eval hues colors = .ok c) {name : String} (hname : name ∈ e.references) : name ∈ colors.names := by
  by_contra hmissing
  obtain ⟨first, hfirst⟩ := exists_firstFailing fun hall => hmissing (hall name hname)
  rw [eval_of_unresolved hfirst] at h
  cases h

theorem hue_mem_names_of_eval_ok {hues : HueTable α} {colors : Table (Color α)} {e : Expression α}
    {c : Color α} (h : e.eval hues colors = .ok c) {hue : String} (hhue : hue ∈ e.hueReferences) :
    hue ∈ hues.names := by
  by_contra hmissing
  rw [eval_of_unknownHue hhue hmissing] at h
  cases h

/-- A result that is a color, or says that the components of one are not finite. -/
def ColorOrNotFinite (result : Except (ThemeError α) (Color α)) : Prop :=
  (∃ c, result = .ok c) ∨ ∃ h s l, result = .error (.notFinite h s l)

theorem make_colorOrNotFinite (h s l : α) : ColorOrNotFinite (Color.make h s l) := by
  unfold Color.make
  split
  · exact Or.inl ⟨_, rfl⟩
  · exact Or.inr ⟨h, s, l, rfl⟩

theorem eval_colorOrNotFinite {hues : HueTable α} {colors : Table (Color α)} {e : Expression α}
    (hhues : ∀ hue ∈ e.hueReferences, hue ∈ hues.names)
    (hcolors : ∀ name ∈ e.references, name ∈ colors.names) : ColorOrNotFinite (e.eval hues colors) := by
  cases e with
  | literal c => exact make_colorOrNotFinite _ _ _
  | hsl term s l =>
    cases term with
    | degrees hue => exact make_colorOrNotFinite hue s l
    | named name =>
      obtain ⟨hue, hfound⟩ := (hues.mem_names_iff name).mp (hhues name (by simp [hueReferences]))
      have hlookup : hues.lookup name = .ok hue := (hues.lookup_eq_ok_iff name hue).mpr hfound
      simp only [eval, HueTerm.eval, hlookup]
      exact make_colorOrNotFinite hue s l
  | adjust base s l =>
    obtain ⟨c, hc⟩ := lookupColor_of_mem (hcolors base (by simp [references]))
    exact Or.inl ⟨c.adjust s l, by simp only [eval, hc]; rfl⟩
  | mix first second weight =>
    obtain ⟨a, ha⟩ := lookupColor_of_mem (hcolors first (by simp [references]))
    obtain ⟨b, hb⟩ := lookupColor_of_mem (hcolors second (by simp [references]))
    simp only [eval, ha, hb]
    exact make_colorOrNotFinite _ _ _
  | «alias» name =>
    exact Or.inl (lookupColor_of_mem (hcolors name (by simp [references])))

end Expression

end EditorTheme
