import EditorTheme.Proofs.Palette.Outcome
import EditorTheme.Proofs.Table

/-!
Palettes with other expressions under the same names. Where each expression is replaced by one that refers to the same
colors, lacks the same hues and has the same color, nothing about the outcome of a palette changes. What is rewritten
can be given as texts too.
-/

set_option autoImplicit false
set_option relaxedAutoImplicit false

namespace EditorTheme

variable {α : Type} [Scalar α]

def Expression.missingHue? (e : Expression α) (hues : HueTable α) : Option String :=
  e.hueReferences.find? fun hue => !hues.contains hue

/-- Expressions that no palette tells apart. -/
structure Expression.Alike (hues : HueTable α) (e other : Expression α) : Prop where
  references : other.references = e.references
  missingHue : other.missingHue? hues = e.missingHue? hues
  eval : ∀ colors, other.eval hues colors = e.eval hues colors

theorem Expression.Alike.refl {hues : HueTable α} (e : Expression α) : e.Alike hues e := ⟨rfl, rfl, fun _ => rfl⟩

namespace Palette

section Evaluation

variable {p : Palette α} {hues : HueTable α} {f : String → Expression α → Expression α}
  (halike : ∀ name e, p.find? name = some e → e.Alike hues (f name e))

include halike

theorem references_rewritten (name : String) : references (p.rewritten f) name = p.references name := by
  rw [references, references, Table.find?_rewritten]
  cases hfound : p.find? name with
  | none => rfl
  | some e => exact (halike name e hfound).references

omit halike [Scalar α] in
theorem contains_rewritten (name : String) : (p.rewritten f).contains name = p.contains name := by
  rw [Table.contains, Table.contains, Table.find?_rewritten, Option.isSome_map]

theorem checkEntry_rewritten {name : String} {e : Expression α} (hfound : p.find? name = some e) :
    checkEntry (p.rewritten f) hues name (f name e) = checkEntry p hues name e := by
  have hsame := halike name e hfound
  have hhues := hsame.missingHue
  unfold Expression.missingHue? at hhues
  unfold checkEntry
  simp only [hhues, hsame.references, contains_rewritten]

theorem checkReferences_rewritten : checkReferences (p.rewritten f) hues = p.checkReferences hues := by
  have hentries : (p.rewritten f).entries = p.entries.map fun entry => (entry.1, f entry.1 entry.2) := rfl
  rw [checkReferences, checkReferences, List.forM_eq_forM, hentries, List.forM_map]
  refine forM_congr fun entry hentry => ?_
  exact checkEntry_rewritten halike ((p.mem_entries_iff entry.1 entry.2).mp hentry)

theorem computeNext_rewritten (colors : Table (Color α)) (name : String) :
    computeNext (p.rewritten f) hues colors name = p.computeNext hues colors name := by
  rw [computeNext, computeNext, Table.find?_rewritten]
  cases hfound : p.find? name with
  | none => rfl
  | some e =>
    simp only [Option.map_some, (halike name e hfound).eval colors]

theorem evaluate_rewritten : evaluate (p.rewritten f) hues = p.evaluate hues := by
  have horder : order (p.rewritten f) = p.order :=
    order_congr (Table.names_rewritten p f) (references_rewritten halike)
  have hcompute : computeNext (p.rewritten f) hues = p.computeNext hues := by
    funext colors name
    exact computeNext_rewritten halike colors name
  unfold evaluate checkedOrder
  simp only [checkReferences_rewritten halike, horder, hcompute, Table.names_rewritten]

end Evaluation

section Texts

variable {texts others : Texts} {hues : HueTable α} {f : String → Expression α → Expression α}

/-- Texts under the same names that read as the rewritten expressions of other texts. -/
structure RewrittenBy (f : String → Expression α → Expression α) (texts others : Texts) : Prop where
  names : others.names = texts.names
  declares : ∀ name e, others.Declares name e ↔ ∃ old, texts.Declares name old ∧ f name old = e

theorem Reads.eq {p q : Palette α} (hp : Reads texts p) (hq : Reads texts q) : p = q := by
  refine Table.eq_of_find? (hp.names.trans hq.names.symm) fun name _ => ?_
  apply Option.ext
  intro e
  rw [hp.find?_eq_some_iff, hq.find?_eq_some_iff]

theorem Reads.rewritten_iff {p : Palette α} (h : Reads texts p) :
    Reads others (p.rewritten f) ↔ RewrittenBy f texts others := by
  have hnames : (p.rewritten f).names = texts.names := (Table.names_rewritten p f).trans h.names
  have hdeclares : ∀ name e, (p.rewritten f).find? name = some e ↔
      ∃ old, texts.Declares name old ∧ f name old = e := by
    intro name e
    rw [Table.find?_rewritten, Option.map_eq_some_iff]
    simp only [h.find?_eq_some_iff]
  constructor
  · intro hreads
    refine ⟨hreads.names.symm.trans hnames, fun name e => ?_⟩
    rw [← hreads.find?_eq_some_iff, hdeclares]
  · intro hrewritten
    refine ⟨hnames.trans hrewritten.names.symm, fun name e => ?_⟩
    rw [hrewritten.declares, hdeclares]

theorem RewrittenBy.readable_iff (h : RewrittenBy f texts others) :
    (∀ name ∈ others.names, others.Readable α name) ↔ ∀ name ∈ texts.names, texts.Readable α name := by
  have hname : ∀ name, others.Readable α name ↔ texts.Readable α name := by
    intro name
    simp only [Texts.Readable, h.declares]
    constructor
    · rintro ⟨-, old, hold, -⟩
      exact ⟨old, hold⟩
    · rintro ⟨old, hold⟩
      exact ⟨_, old, hold, rfl⟩
  simp only [h.names, hname]

theorem readable_of_parse {p : Palette α} (h : parse texts.entries = .ok p) :
    ∀ name ∈ texts.names, texts.Readable α name := by
  have hreads : Reads texts p := reads_of_parse h
  intro name hname
  obtain ⟨e, he⟩ := (p.mem_names_iff name).mp (hreads.names ▸ hname)
  exact ⟨e, (hreads.find?_eq_some_iff name e).mp he⟩

theorem readable_of_resolve {table : Table (Color α)} (h : resolve texts.entries hues = .ok table) :
    ∀ name ∈ texts.names, texts.Readable α name := by
  obtain ⟨p, hparse, -⟩ := resolve_eq_ok_iff.mp h
  exact readable_of_parse hparse

theorem RewrittenBy.parse_eq (h : RewrittenBy f texts others) {p : Palette α} (hparse : parse texts.entries = .ok p) :
    parse others.entries = .ok (p.rewritten f) := by
  obtain ⟨q, hparse', hreads'⟩ := exists_reads (h.readable_iff.mpr (readable_of_parse hparse))
  obtain rfl : q = p.rewritten f := hreads'.eq ((reads_of_parse hparse).rewritten_iff.mpr h)
  exact hparse'

end Texts

end Palette

end EditorTheme
