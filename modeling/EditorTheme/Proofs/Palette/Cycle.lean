import EditorTheme.Proofs.Raising.Resolution

/-!
The cycle that is reported where references run in one. It is read off the way that the search has gone, from the first
place of the name to which it came back, so it is closed, meets no name twice, and leaves out the names by which the
search came to it.
-/

set_option autoImplicit false
set_option relaxedAutoImplicit false

namespace EditorTheme.Palette

open Relation

variable {α : Type} {p : Palette α}

/-- Declared names in a row, at least two, each referring to the next. The last is the first again, and otherwise they
differ. -/
structure SimpleCycle (p : Palette α) (names : List String) : Prop where
  length : 2 ≤ names.length
  closes : names.head? = names.getLast?
  distinct : names.dropLast.Nodup
  declared : names ⊆ p.names
  refers : ∀ place, (h : place + 1 < names.length) → p.Refers names[place] names[place + 1]

/-- A way that references make from a declared name to the first name of a cycle, and round it. None of the names before
the cycle belongs to it. -/
structure LeadsInto (p : Palette α) (lead cycle : List String) : Prop where
  declared : ∀ name ∈ (lead ++ cycle).head?, name ∈ p.names
  refers : List.IsChain p.Refers (lead ++ cycle)
  apart : lead.Disjoint cycle

theorem IsCycle.simpleCycle {names : List String} (h : IsCycle p names) : SimpleCycle p names := by
  have hdeclared : names ⊆ p.names := by
    intro name hname
    obtain ⟨next, hnext, -⟩ := TransGen.head'_iff.mp (h.leads hname hname)
    exact mem_names_of_refers hnext
  obtain ⟨first, rest, rfl, hdistinct, hchain⟩ := h
  refine ⟨by simp, ?_, ?_, hdeclared, List.isChain_iff_getElem.mp hchain⟩
  · rw [List.getLast?_concat]
    rfl
  · rwa [List.dropLast_concat]

theorem exists_leadsInto_of_order {names : List String} (h : p.order = .error names) : ∃ lead, LeadsInto p lead names := by
  obtain ⟨root, hroot, done, hvisit⟩ := exists_of_foldlM_error h
  obtain ⟨lead, first, rest, hnames, hstart, hdistinct, hround⟩ :=
    exists_lead_of_visit (.start p root) hvisit
  refine ⟨lead, ?_, hround, ?_⟩
  · intro name hname
    obtain ⟨after, hafter⟩ := hstart
    rw [← hafter] at hname
    obtain rfl : root = name := by simpa using hname
    exact hroot
  · -- The report repeats its first name, so it holds no name but those that the way meets once.
    intro name hlead hcycle
    have hmem : name ∈ first :: rest := by
      rw [hnames] at hcycle
      simpa [or_comm] using hcycle
    exact (List.nodup_append.mp hdistinct).2.2 name hlead name hmem rfl

/-- Where all that is referred to is declared, the report of a cycle is a simple cycle. Its names lead to one another,
so one to which some of them do not lead is left out, even if it leads to them; in particular the names by which the
search came to the cycle. The search with marks reports the same at every depth beyond the number of names. -/
theorem order_reports_simple_cycle (hclosed : p.Closed) {cycle : List String} (h : p.order = .error cycle) :
    SimpleCycle p cycle ∧
      (∀ name, (∃ member ∈ cycle, ¬ TransGen p.Refers member name) → name ∉ cycle) ∧
      (∃ lead, LeadsInto p lead cycle) ∧
      ∀ depth, p.names.length < depth → Raising.order depth p = .error (.theme (.cycle cycle)) := by
  have hcycle : IsCycle p cycle := isCycle_of_order h
  refine ⟨hcycle.simpleCycle, ?_, exists_leadsInto_of_order h, fun depth hdepth => ?_⟩
  · rintro name ⟨member, hmember, hnone⟩ hname
    exact hnone (hcycle.leads hmember hname)
  · rw [Raising.order_eq hclosed hdepth, h]
    rfl

section Witness

/-- The search begins at `top` and comes to the cycle of `left` and `right` by `side`, past `base`, which it shares. -/
private def entangled : Palette Float :=
  ⟨[("top", .mix "base" "side" 0.5), ("base", .literal ⟨51, 102, 153⟩), ("side", .mix "base" "left" 0.25),
    ("left", .alias "right"), ("right", .mix "base" "left" 0.75)], by decide⟩

theorem order_reports_simple_cycle_entangled :
    entangled.Closed ∧ entangled.order = .error ["left", "right", "left"] ∧
      SimpleCycle entangled ["left", "right", "left"] ∧ "side" ∉ ["left", "right", "left"] ∧
      Raising.order 6 entangled = .error (.theme (.cycle ["left", "right", "left"])) := by
  have hcheck : entangled.checkReferences Table.empty = .ok () := rfl
  have hclosed : entangled.Closed := closed_of_checkReferences hcheck
  have horder : entangled.order = .error ["left", "right", "left"] := by decide +kernel
  obtain ⟨hsimple, -, -, hmarks⟩ := order_reports_simple_cycle hclosed horder
  exact ⟨hclosed, horder, hsimple, by decide, hmarks 6 (by decide)⟩

end Witness

end EditorTheme.Palette
