import EditorTheme.Proofs.Palette.Outcome
import EditorTheme.Proofs.Table
import Mathlib.Data.List.Find

/-!
A palette with one more entry, which nothing refers to. The search puts its name behind all others and otherwise does
what it did, so a palette that resolves keeps its colors, and the new entry is checked and evaluated against them.
-/

set_option autoImplicit false
set_option relaxedAutoImplicit false

namespace EditorTheme

namespace Palette

variable {α : Type} {p : Palette α} {new : String} {e : Expression α}

section Order

theorem names_insert_new (hnew : new ∉ p.names) : (p.insert new e).names = p.names ++ [new] := by
  rw [Table.names_insert, if_neg hnew]

theorem references_insert_of_ne {name : String} (hne : name ≠ new) :
    references (p.insert new e) name = p.references name := by
  rw [references, references, p.find?_insert_of_ne hne e]

theorem references_insert_self : references (p.insert new e) new = e.references :=
  references_of_find? (p.find?_insert_self new e)

theorem visit_insert (hclosed : p.Closed) (hnew : new ∉ p.names) {path done : List String} {name : String}
    (hname : name ∈ p.names) : visit (p.insert new e) path done name = p.visit path done name := by
  refine visit_congr (S := {name | name ∈ p.names}) (fun name _ => hclosed name) ?_ ?_ hname
  · intro name hname
    rw [names_insert_new hnew]
    exact iff_of_true (List.mem_append_left _ hname) hname
  · intro name hname
    exact references_insert_of_ne fun heq => hnew (heq ▸ hname)

theorem order_insert (hclosed : p.Closed) (hnew : new ∉ p.names) (hrefs : e.references ⊆ p.names) :
    order (p.insert new e) = (p.order >>= fun names => .ok (names ++ [new])) := by
  have hold : p.names.foldlM (fun done name => visit (p.insert new e) [] done name) [] = p.order :=
    foldlM_congr (fun _ hname _ => visit_insert hclosed hnew hname) []
  rw [order, names_insert_new hnew, foldlM_concat, hold]
  cases horder : p.order with
  | error cycle => rfl
  | ok names =>
    obtain ⟨harranged, hall⟩ := arranged_of_order hclosed horder
    have hfresh : new ∉ names := fun hmem => hnew (harranged.mem_names hmem)
    have hthere : new ∈ (p.insert new e).names := by simp [names_insert_new hnew]
    have hdone : references (p.insert new e) new ⊆ names := by
      rw [references_insert_self]
      exact List.Subset.trans hrefs hall
    exact visit_of_references_subset hthere hfresh List.not_mem_nil hdone

end Order

section Check

variable {hues : HueTable α}

theorem checkEntry_insert (hself : new ∉ e.references) :
    checkEntry (p.insert new e) hues new e = checkEntry p hues new e := by
  have hsame : e.references.find? (fun reference => !(p.insert new e).contains reference) =
      e.references.find? fun reference => !p.contains reference := by
    refine List.find?_congr fun reference href => ?_
    have hne : reference ≠ new := fun heq => hself (heq ▸ href)
    rw [Table.contains, Table.contains, p.find?_insert_of_ne hne e]
  unfold checkEntry
  rw [hsame]

theorem checkReferences_insert (hdeclared : p.Declared hues) (hnew : new ∉ p.names) (hself : new ∉ e.references) :
    checkReferences (p.insert new e) hues = checkEntry p hues new e := by
  have hold : p.entries.forM (fun entry => checkEntry (p.insert new e) hues entry.1 entry.2) = .ok () := by
    rw [List.forM_eq_forM, forM_eq_ok_iff]
    intro entry hentry
    obtain ⟨hhues, hcolors⟩ := hdeclared entry.1 entry.2 ((p.mem_entries_iff entry.1 entry.2).mp hentry)
    rw [checkEntry_eq_ok_iff, names_insert_new hnew]
    exact ⟨hhues, fun reference href => List.mem_append_left _ (hcolors href)⟩
  rw [← checkEntry_insert hself, checkReferences, Table.entries_insert_of_not_mem hnew, List.forM_eq_forM,
    List.forM_append, ← List.forM_eq_forM, bind_of_ok hold]
  cases h : checkEntry (p.insert new e) hues new e <;> simp [h]

end Check

section Evaluation

variable [Scalar α] {hues : HueTable α} {table : Table (Color α)}

theorem computeNext_insert_of_mem (hnew : new ∉ p.names) {name : String} (hname : name ∈ p.names)
    (colors : Table (Color α)) : computeNext (p.insert new e) hues colors name = p.computeNext hues colors name := by
  have hne : name ≠ new := fun heq => hnew (heq ▸ hname)
  rw [computeNext, computeNext, p.find?_insert_of_ne hne e]

/-- A new entry in a palette that has its colors: what it refers to is checked, and its color is computed from those
that are there. -/
theorem evaluate_insert (h : p.evaluate hues = .ok table) (hnew : new ∉ p.names) (hself : new ∉ e.references) :
    evaluate (p.insert new e) hues = (do
      checkEntry p hues new e
      return table.insert new (← e.eval hues table)) := by
  obtain ⟨hdeclared, order, horder⟩ := declared_of_evaluate h
  have hcheck := checkReferences_insert hdeclared hnew hself
  cases hentry : checkEntry p hues new e with
  | error fault => exact bind_of_error (bind_of_error (hcheck.trans hentry) _) _
  | ok u =>
    have hrefs : e.references ⊆ p.names := (checkEntry_eq_ok_iff.mp hentry).2
    obtain ⟨harranged, hall⟩ := arranged_of_order hdeclared.closed horder
    rw [evaluate_of_order hdeclared horder] at h
    obtain ⟨colors, hcolors, hselect⟩ := bind_eq_ok.mp h
    obtain rfl := pure_eq_ok.mp hselect
    have horder' : Palette.order (p.insert new e) = .ok (order ++ [new]) := by
      rw [order_insert hdeclared.closed hnew hrefs, bind_of_ok horder]
    have hcolors' : order.foldlM (computeNext (p.insert new e) hues) Table.empty = .ok colors := by
      rw [← hcolors]
      exact foldlM_congr (fun name hname colors => computeNext_insert_of_mem hnew (harranged.mem_names hname) colors) _
    have heval : e.eval hues (colors.select p.names p.distinct) = e.eval hues colors :=
      Expression.eval_congr (fun _ _ => rfl) fun reference href => colors.find?_select p.distinct (hrefs href)
    rw [evaluate_of_order (checkReferences_eq_ok_iff.mp (hcheck.trans hentry)) horder', foldlM_concat,
      bind_of_ok hcolors', computeNext_of_find? (p.find?_insert_self new e), heval]
    cases e.eval hues colors with
    | error fault => rfl
    | ok c =>
      have hnames : (p.insert new e).names = p.names ++ [new] := names_insert_new hnew
      have hlonger : (p.names ++ [new]).Nodup := hnames ▸ (p.insert new e).distinct
      refine congrArg Except.ok ?_
      rw [← colors.select_insert hnew c p.distinct hlonger]
      congr 1

theorem resolve_insert {texts : Texts} (h : resolve texts.entries hues = .ok table) (hnew : new ∉ texts.names)
    {text : String} (hself : ∀ e : Expression α, Expression.read text = .ok e → new ∉ e.references) :
    ∃ p : Palette α, p.names = table.names ∧ resolve (texts.insert new text).entries hues = (do
      let e ← Expression.read text
      checkEntry p hues new e
      return table.insert new (← e.eval hues table)) := by
  obtain ⟨p, hparse, hevaluate⟩ := resolve_eq_ok_iff.mp h
  have hnames : p.names = texts.names := (reads_of_parse hparse).names
  refine ⟨p, (solves_of_evaluate hevaluate).2.symm, ?_⟩
  have hparse' : parse (texts.insert new text).entries =
      (Expression.read text >>= fun e => pure (p.insert new e) : Except (ThemeError α) (Palette α)) := by
    rw [parse, ofEntries, Table.entries_insert_of_not_mem hnew, foldlM_concat]
    exact bind_of_ok hparse _
  rw [resolve, hparse']
  cases hread : (Expression.read text : Except (ThemeError α) (Expression α)) with
  | error fault => rfl
  | ok e => exact evaluate_insert hevaluate (hnames ▸ hnew) (hself e hread)

end Evaluation

end Palette

end EditorTheme
