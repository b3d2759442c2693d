import EditorTheme.Proofs.Raising.Resolution

/-!
The order of a palette whose references are all declared is a topological order: it lists every name once, each after
the names that it refers to. It is found exactly when the references run in no cycle. The search with marks comes to the
same end where visits may go deeper inside each other than there are names.
-/

set_option autoImplicit false
set_option relaxedAutoImplicit false

namespace EditorTheme.Palette

open Relation

variable {α : Type} {p : Palette α}

/-- All names of a palette, each once and after those that it refers to. -/
structure TopologicalOrder (p : Palette α) (names : List String) : Prop where
  perm : names.Perm p.names
  after : ∀ before name rest, names = before ++ name :: rest →
    ∀ reference, p.Refers name reference → reference ∈ before

namespace Arranged

variable {done : List String}

theorem nodup (h : Arranged p done) : done.Nodup := by
  induction h with
  | nil => exact List.nodup_nil
  | @snoc done name _ _ hnew _ ih =>
    rw [List.nodup_append]
    refine ⟨ih, by simp, ?_⟩
    rintro x hx y hy rfl
    exact hnew (List.mem_singleton.mp hy ▸ hx)

theorem mem_before (h : Arranged p done) {before rest : List String} {name reference : String}
    (hdone : done = before ++ name :: rest) (hrefers : p.Refers name reference) : reference ∈ before := by
  induction h generalizing rest with
  | nil => simp at hdone
  | @snoc done last _ _ _ hrefs ih =>
    rcases List.eq_nil_or_concat rest with rfl | ⟨inner, final, rfl⟩
    · obtain ⟨rfl, hlast⟩ := List.append_inj' hdone rfl
      obtain rfl : last = name := by simpa using hlast
      exact hrefs reference hrefers
    · rw [List.concat_eq_append, ← List.cons_append, ← List.append_assoc] at hdone
      exact ih (List.append_inj' hdone rfl).1

theorem topologicalOrder (h : Arranged p done) (hall : p.names ⊆ done) : TopologicalOrder p done where
  perm := (List.perm_ext_iff_of_nodup h.nodup p.distinct).mpr fun _ => ⟨h.mem_names, fun hname => hall hname⟩
  after _ _ _ hdone _ hrefers := h.mem_before hdone hrefers

end Arranged

/-- Where every name that is referred to is declared, the search reports a cycle exactly if there is one, and otherwise
it finds a topological order. With marks it ends likewise at every depth beyond the number of names. -/
theorem order_topological (hclosed : p.Closed) :
    ((∃ cycle, p.order = .error cycle) ↔ ∃ name, TransGen p.Refers name name) ∧
      ((¬ ∃ name, TransGen p.Refers name name) → ∃ names, p.order = .ok names ∧ TopologicalOrder p names) ∧
      ∀ depth, p.names.length < depth →
        (∀ names, p.order = .ok names → Raising.order depth p = .ok names) ∧
        ∀ cycle, p.order = .error cycle → Raising.order depth p = .error (.theme (.cycle cycle)) := by
  refine ⟨⟨?_, ?_⟩, ?_, fun depth hdepth => ⟨?_, ?_⟩⟩
  · rintro ⟨cycle, h⟩
    exact (isCycle_of_order h).transGen
  · rintro ⟨name, hcycle⟩
    cases h : p.order with
    | error cycle => exact ⟨cycle, rfl⟩
    | ok names => exact absurd hcycle ((exists_order_iff_acyclic hclosed).mp ⟨names, h⟩ name)
  · intro hnone
    have hacyclic : p.Acyclic := fun name hcycle => hnone ⟨name, hcycle⟩
    obtain ⟨names, h⟩ := (exists_order_iff_acyclic hclosed).mpr hacyclic
    obtain ⟨harranged, hall⟩ := arranged_of_order hclosed h
    exact ⟨names, h, harranged.topologicalOrder hall⟩
  · intro names h
    rw [Raising.order_eq hclosed hdepth, h]
    rfl
  · intro cycle h
    rw [Raising.order_eq hclosed hdepth, h]
    rfl

section Witness

/-- Two names that share a reference, and a third that refers to both and is declared before all of them. -/
private def diamond : Palette Float :=
  ⟨[("blend", .mix "dim" "lit" 0.5), ("dim", .adjust "base" 0 (-0.25)), ("lit", .adjust "base" 0 0.25),
    ("base", .literal ⟨51, 102, 153⟩)], by decide⟩

private def looped : Palette Float :=
  ⟨[("top", .mix "left" "base" 0.5), ("base", .literal ⟨51, 102, 153⟩), ("left", .alias "right"),
    ("right", .adjust "left" 0 0.25)], by decide⟩

theorem order_topological_diamond :
    (diamond.Closed ∧ ∃ names, diamond.order = .ok names ∧ TopologicalOrder diamond names) ∧
      (looped.Closed ∧ ∃ cycle, looped.order = .error cycle) ∧
      Raising.order 5 diamond = .ok ["base", "dim", "lit", "blend"] := by
  have hdiamond : diamond.Closed := closed_of_checkReferences (show diamond.checkReferences Table.empty = .ok () from rfl)
  have hlooped : looped.Closed := closed_of_checkReferences (show looped.checkReferences Table.empty = .ok () from rfl)
  have hcycle : ∃ name, TransGen looped.Refers name name :=
    ⟨"left", .head (b := "right") (List.mem_singleton.mpr rfl) (.single (List.mem_singleton.mpr rfl))⟩
  have hfound : diamond.order = .ok ["base", "dim", "lit", "blend"] := by decide +kernel
  obtain ⟨hreports, horders, hmarks⟩ := order_topological hdiamond
  have hnone : ¬ ∃ name, TransGen diamond.Refers name name := by
    intro h
    obtain ⟨cycle, hreported⟩ := hreports.mpr h
    rw [hfound] at hreported
    cases hreported
  exact ⟨⟨hdiamond, horders hnone⟩, ⟨hlooped, (order_topological hlooped).1.mpr hcycle⟩,
    (hmarks 5 (by decide)).1 _ hfound⟩

end Witness

end EditorTheme.Palette
