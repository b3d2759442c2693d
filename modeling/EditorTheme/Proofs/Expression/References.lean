import EditorTheme.Expression.Reading
import EditorTheme.Proofs.Expression.Evaluation
import EditorTheme.Proofs.Table

/-!
What an expression declares to refer to, and what its evaluation asks for. The two are the same: the evaluation ends
with a missing name exactly if one of the references is missing, which is then the first one in the order of the
arguments, and it cannot be told from any other evaluation that finds the same under these names.
-/

set_option autoImplicit false
set_option relaxedAutoImplicit false

namespace EditorTheme

variable {α : Type} [Scalar α]

namespace Expression

variable {hues : HueTable α} {colors : Table (Color α)} {e : Expression α}

theorem eval_cases (hues : HueTable α) (colors : Table (Color α)) (e : Expression α) :
    (∃ hue ∈ e.hueReferences, hue ∉ hues.names ∧ e.eval hues colors = .error (.unknownHue hue)) ∨
      (∃ name, FirstFailing (· ∈ colors.names) e.references name ∧
        e.eval hues colors = .error (.unresolved name)) ∨
      ColorOrNotFinite (e.eval hues colors) := by
  by_cases hhues : ∀ hue ∈ e.hueReferences, hue ∈ hues.names
  · by_cases hcolors : ∀ name ∈ e.references, name ∈ colors.names
    · exact .inr (.inr (eval_colorOrNotFinite hhues hcolors))
    · obtain ⟨name, hname⟩ := exists_firstFailing hcolors
      exact .inr (.inl ⟨name, hname, eval_of_unresolved hname hues⟩)
  · obtain ⟨hue, hhue, hmissing⟩ := not_forall₂.mp hhues
    exact .inl ⟨hue, hhue, hmissing, eval_of_unknownHue hhue hmissing colors⟩

theorem eval_eq_unresolved_iff (name : String) :
    e.eval hues colors = .error (.unresolved name) ↔ FirstFailing (· ∈ colors.names) e.references name := by
  refine ⟨fun h => ?_, fun h => eval_of_unresolved h hues⟩
  rcases eval_cases hues colors e with ⟨hue, -, -, heval⟩ | ⟨first, hfirst, heval⟩ | ⟨c, heval⟩ | ⟨_, _, _, heval⟩
  · cases h.symm.trans heval
  · cases h.symm.trans heval
    exact hfirst
  · cases h.symm.trans heval
  · cases h.symm.trans heval

theorem eval_eq_unknownHue_iff (hue : String) :
    e.eval hues colors = .error (.unknownHue hue) ↔ hue ∈ e.hueReferences ∧ hue ∉ hues.names := by
  refine ⟨fun h => ?_, fun h => eval_of_unknownHue h.1 h.2 colors⟩
  rcases eval_cases hues colors e with
    ⟨missing, hmissing, hnone, heval⟩ | ⟨name, -, heval⟩ | ⟨c, heval⟩ | ⟨_, _, _, heval⟩
  · cases h.symm.trans heval
    exact ⟨hmissing, hnone⟩
  · cases h.symm.trans heval
  · cases h.symm.trans heval
  · cases h.symm.trans heval

theorem eval_extended {moreHues : List (String × α)} {moreColors : List (String × Color α)}
    (hhues : ∀ entry ∈ moreHues, entry.1 ∉ e.hueReferences)
    (hcolors : ∀ entry ∈ moreColors, entry.1 ∉ e.references) :
    e.eval (hues.extended moreHues) (colors.extended moreColors) = e.eval hues colors := by
  refine eval_congr (fun hue hhue => ?_) fun name hname => ?_
  · exact Table.find?_extended (fun entry hentry heq => hhues entry hentry (heq ▸ hhue)) hues
  · exact Table.find?_extended (fun entry hentry heq => hcolors entry hentry (heq ▸ hname)) colors

/-- The references of an expression are exactly what its evaluation asks for. A color that is not there is reported, the
first one in the order of the arguments; so is a hue. -/
theorem eval_asks_for_references (e : Expression α) (hues : HueTable α) (colors : Table (Color α)) :
    (∀ name, e.eval hues colors = .error (.unresolved name) ↔
      FirstFailing (· ∈ colors.names) e.references name) ∧
    (∀ hue, e.eval hues colors = .error (.unknownHue hue) ↔ hue ∈ e.hueReferences ∧ hue ∉ hues.names) ∧
    (∀ (otherHues : HueTable α) (others : Table (Color α)),
      (∀ hue ∈ e.hueReferences, hues.find? hue = otherHues.find? hue) →
      (∀ name ∈ e.references, colors.find? name = others.find? name) →
      e.eval hues colors = e.eval otherHues others) ∧
    ∀ (moreHues : List (String × α)) (moreColors : List (String × Color α)),
      (∀ entry ∈ moreHues, entry.1 ∉ e.hueReferences) → (∀ entry ∈ moreColors, entry.1 ∉ e.references) →
      e.eval (hues.extended moreHues) (colors.extended moreColors) = e.eval hues colors :=
  ⟨eval_eq_unresolved_iff, eval_eq_unknownHue_iff, fun _ _ hhues hcolors => eval_congr hhues hcolors,
    fun _ _ hhues hcolors => eval_extended hhues hcolors⟩

section Witness

private def blend : Expression Float := .mix "glow" "dusk" 0.25

private def glowing : Table (Color Float) := ⟨[("glow", ⟨40, 0.5, 0.75⟩)], by decide⟩

theorem eval_asks_for_references_blend : read "mix(glow, dusk, 0.25)" = .ok blend ∧
    blend.eval Table.empty Table.empty = .error (.unresolved "glow") ∧
    blend.eval Table.empty glowing = .error (.unresolved "dusk") ∧
    blend.eval (Table.empty.extended [("azure", 210)]) (glowing.extended [("sky", ⟨210, 1, 0.5⟩)]) =
      .error (.unresolved "dusk") := by
  obtain ⟨hnone, -⟩ := eval_asks_for_references blend Table.empty Table.empty
  obtain ⟨hglowing, -, -, hextended⟩ := eval_asks_for_references blend Table.empty glowing
  have hglow : FirstFailing (· ∈ (Table.empty : Table (Color Float)).names) blend.references "glow" :=
    ⟨[], ["dusk"], rfl, by simp, List.not_mem_nil⟩
  have hdusk : FirstFailing (· ∈ glowing.names) blend.references "dusk" :=
    ⟨["glow"], [], rfl, by decide, by decide⟩
  have hmore := hextended [("azure", 210)] [("sky", ⟨210, 1, 0.5⟩)] (by simp [blend, hueReferences])
    (by simp [blend, references])
  exact ⟨rfl, (hnone "glow").mpr hglow, (hglowing "dusk").mpr hdusk, hmore.trans ((hglowing "dusk").mpr hdusk)⟩

end Witness

end Expression

end EditorTheme
