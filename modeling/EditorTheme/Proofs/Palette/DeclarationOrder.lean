import EditorTheme.Proofs.Palette.TopologicalOrder
import EditorTheme.Proofs.Table

/-!
How far the order of a palette departs from the order of declaration. What the searches from the first names have put
among the names done is exactly what these names lead to, so a name comes too early only where an earlier declaration
leads to it; and an order that needs no change is not changed.
-/

set_option autoImplicit false
set_option relaxedAutoImplicit false

namespace EditorTheme.Palette

open Relation

variable {α : Type} {p : Palette α}

theorem not_mem_of_nodup {before after : List String} {name : String} (h : (before ++ name :: after).Nodup) :
    name ∉ before := fun hmem => (List.nodup_append.mp h).2.2 name hmem name List.mem_cons_self rfl

def StandsBefore (names : List String) (first second : String) : Prop :=
  ∃ before after, names = before ++ second :: after ∧ first ∈ before

theorem StandsBefore.mem_of_prefix {names front : List String} {first second : String}
    (h : StandsBefore names first second) (hdistinct : names.Nodup) (hfront : front <+: names)
    (hsecond : second ∈ front) : first ∈ front := by
  obtain ⟨before, after, rfl, hfirst⟩ := h
  have hnot : second ∉ before := not_mem_of_nodup hdistinct
  have hbefore : before <+: before ++ second :: after := List.prefix_append _ _
  rcases List.prefix_or_prefix_of_prefix hbefore hfront with hshort | hlong
  · exact hshort.subset hfirst
  · exact absurd (hlong.subset hsecond) hnot

theorem StandsBefore.ne {names : List String} {first second : String} (h : StandsBefore names first second)
    (hdistinct : names.Nodup) : first ≠ second := by
  obtain ⟨before, after, rfl, hfirst⟩ := h
  rintro rfl
  exact not_mem_of_nodup hdistinct hfirst

theorem StandsBefore.mem_before {before after : List String} {first second : String}
    (h : StandsBefore (before ++ second :: after) first second) (hdistinct : (before ++ second :: after).Nodup) :
    first ∈ before := by
  have hfront : before ++ [second] <+: before ++ second :: after := ⟨after, by simp⟩
  have hmem : first ∈ before ++ [second] := h.mem_of_prefix hdistinct hfront (by simp)
  rcases List.mem_append.mp hmem with hfirst | hsame
  · exact hfirst
  · exact absurd (List.mem_singleton.mp hsame) (h.ne hdistinct)

section Reach

theorem leads_of_visit {path done after : List String} {name : String} (h : p.visit path done name = .ok after) :
    ∀ reached ∈ after, reached ∈ done ∨ ReflTransGen p.Refers name reached := by
  fun_induction visit p path done name generalizing after with
  | case1 path done name =>
    obtain rfl := Except.ok.inj h
    exact fun _ hreached => Or.inl hreached
  | case2 => cases h
  | case3 path done name _ _ _ ih =>
    obtain ⟨reached, hfold, hafter⟩ := bind_eq_ok.mp h
    obtain rfl := pure_eq_ok.mp hafter
    have hreached : ∀ x ∈ reached, x ∈ done ∨ ReflTransGen p.Refers name x := by
      refine foldlM_invariant (P := fun state => ∀ x ∈ state, x ∈ done ∨ ReflTransGen p.Refers name x)
        (fun reference href state next hstate hvisit x hx => ?_) hfold fun x hx => Or.inl hx
      rcases ih state reference hvisit x hx with hold | hleads
      · exact hstate x hold
      · exact Or.inr (.head href hleads)
    intro x hx
    rcases List.mem_append.mp hx with hx | hx
    · exact hreached x hx
    · obtain rfl := List.mem_singleton.mp hx
      exact Or.inr .refl
  | case4 =>
    obtain rfl := Except.ok.inj h
    exact fun _ hreached => Or.inl hreached

theorem Arranged.mem_of_leads {done : List String} (h : Arranged p done) {name reached : String} (hname : name ∈ done)
    (hleads : ReflTransGen p.Refers name reached) : reached ∈ done := by
  induction hleads with
  | refl => exact hname
  | tail _ hrefers ih => exact h.mem_of_refers ih hrefers

/-- After the searches from some names, what is done is all that these names lead to, themselves included, and nothing
else. -/
theorem mem_iff_leads_of_searches (hclosed : p.Closed) {roots done : List String} (hroots : roots ⊆ p.names)
    (h : roots.foldlM (fun done name => p.visit [] done name) [] = .ok done) (name : String) :
    name ∈ done ↔ ∃ root ∈ roots, ReflTransGen p.Refers root name := by
  constructor
  · refine foldlM_invariant (P := fun state => name ∈ state → ∃ root ∈ roots, ReflTransGen p.Refers root name)
      (fun root hroot state next hstate hvisit hname => ?_) h fun hname => absurd hname List.not_mem_nil
    rcases leads_of_visit hvisit name hname with hold | hleads
    · exact hstate hold
    · exact ⟨root, hroot, hleads⟩
  · rintro ⟨root, hroot, hleads⟩
    obtain ⟨hext, hall⟩ := extends_of_searches hclosed hroots .nil h
    exact hext.arranged.mem_of_leads (hall hroot) hleads

/-- A declaration that is overtaken by a later one: some entry declared no later leads to the one that overtakes it. -/
theorem exists_leads_of_overtaken (hclosed : p.Closed) {names : List String} (h : p.order = .ok names)
    {overtaken early : String} (hdeclared : StandsBefore p.names overtaken early)
    (hearly : StandsBefore names early overtaken) :
    ∃ name, (name = overtaken ∨ StandsBefore p.names name overtaken) ∧ TransGen p.Refers name early := by
  obtain ⟨declared, after, hnames, hmem⟩ := id hdeclared
  obtain ⟨earlier, between, rfl⟩ := List.append_of_mem hmem
  have hroots : p.names = (earlier ++ [overtaken]) ++ (between ++ early :: after) := by simp [hnames]
  -- The searches from the names declared no later than the overtaken one come first; the others only add to them.
  obtain ⟨done, hdone, hothers⟩ : ∃ done,
      (earlier ++ [overtaken]).foldlM (fun done name => p.visit [] done name) [] = .ok done ∧
      (between ++ early :: after).foldlM (fun done name => p.visit [] done name) done = .ok names := by
    rw [order, hroots, List.foldlM_append] at h
    exact bind_eq_ok.mp h
  have hearlier : earlier ++ [overtaken] ⊆ p.names := hroots ▸ List.subset_append_left _ _
  have hlater : between ++ early :: after ⊆ p.names := hroots ▸ List.subset_append_right _ _
  have hsearched := mem_iff_leads_of_searches hclosed hearlier hdone
  have hkept : done <+: names :=
    (extends_of_searches hclosed hlater (extends_of_searches hclosed hearlier .nil hdone).1.arranged hothers).1.kept
  have hfound : early ∈ done :=
    hearly.mem_of_prefix (arranged_of_order hclosed h).1.nodup hkept ((hsearched overtaken).mpr ⟨overtaken, by simp, .refl⟩)
  obtain ⟨root, hroot, hleads⟩ := (hsearched early).mp hfound
  have hbefore : StandsBefore p.names root early :=
    ⟨earlier ++ [overtaken] ++ between, after, by simp [hnames], List.mem_append_left between hroot⟩
  refine ⟨root, ?_, (reflTransGen_iff_eq_or_transGen.mp hleads).resolve_left (hbefore.ne p.distinct).symm⟩
  rcases List.mem_append.mp hroot with hold | hsame
  · exact Or.inr ⟨earlier, between ++ early :: after, by simp [hnames], hold⟩
  · exact Or.inl (List.mem_singleton.mp hsame)

end Reach

section Unforced

theorem order_eq_names (h : ∀ name reference, p.Refers name reference → StandsBefore p.names reference name) :
    p.order = .ok p.names := by
  have hdistinct : p.names.Nodup := p.distinct
  have hfront : ∀ front after, p.names = front ++ after →
      front.foldlM (fun done name => p.visit [] done name) [] = .ok front := by
    intro front
    induction front using List.reverseRecOn with
    | nil => exact fun _ _ => rfl
    | append_singleton front name ih =>
      intro after hnames
      have hsplit : p.names = front ++ name :: after := by simp [hnames]
      rw [hsplit] at hdistinct
      have hnew : name ∉ front := not_mem_of_nodup hdistinct
      have hrefs : p.references name ⊆ front := fun reference href =>
        StandsBefore.mem_before (hsplit ▸ h name reference href) hdistinct
      rw [foldlM_concat, bind_of_ok (ih (name :: after) hsplit)]
      exact visit_of_references_subset (by simp [hsplit]) hnew List.not_mem_nil hrefs
  exact hfront p.names [] (List.append_nil _).symm

theorem TopologicalOrder.standsBefore {names : List String} (h : TopologicalOrder p names) {name reference : String}
    (hrefers : p.Refers name reference) : StandsBefore names reference name := by
  obtain ⟨before, after, hsplit⟩ := List.append_of_mem (h.perm.mem_iff.mpr (mem_names_of_refers hrefers))
  exact ⟨before, after, hsplit, h.after before name after hsplit reference hrefers⟩

theorem order_select {names : List String} (h : TopologicalOrder p names) (hdistinct : names.Nodup) :
    order (p.select names hdistinct) = .ok names := by
  have hperm := Table.perm_entries_select hdistinct h.perm
  have hnames : (p.select names hdistinct).names = names :=
    p.names_select hdistinct fun name hname => (p.contains_iff_mem_names name).mpr (h.perm.mem_iff.mp hname)
  have hrefers : Refers (p.select names hdistinct) = p.Refers := by
    funext name reference
    rw [Refers, Refers, references, references, Table.find?_eq_of_perm hperm]
  have horder := order_eq_names (p := p.select names hdistinct) fun name reference hrefers' => by
    rw [hrefers] at hrefers'
    rw [hnames]
    exact h.standsBefore hrefers'
  rwa [hnames] at horder

end Unforced

/-- The order of a palette without cycles departs from the order of declaration only where it must: a name that comes
before one declared earlier is led to by an entry declared no later than that one. If every entry stands behind those
that it refers to, the order is that of declaration; so entries declared in the order that was found keep it. -/
theorem order_departs_only_as_forced (hclosed : p.Closed) (hacyclic : p.Acyclic) :
    ∃ names, p.order = .ok names ∧
      (∀ overtaken early, StandsBefore p.names overtaken early → StandsBefore names early overtaken →
        ∃ name, (name = overtaken ∨ StandsBefore p.names name overtaken) ∧ TransGen p.Refers name early) ∧
      ((∀ name reference, p.Refers name reference → StandsBefore p.names reference name) → names = p.names) ∧
      ∃ hdistinct : names.Nodup, (p.select names hdistinct).names = names ∧
        (p.select names hdistinct).entries.Perm p.entries ∧ order (p.select names hdistinct) = .ok names := by
  obtain ⟨names, horder⟩ := (exists_order_iff_acyclic hclosed).mpr hacyclic
  obtain ⟨harranged, hall⟩ := arranged_of_order hclosed horder
  have htopological : TopologicalOrder p names := harranged.topologicalOrder hall
  refine ⟨names, horder, ?_, ?_, harranged.nodup, ?_, ?_, ?_⟩
  · intro overtaken early hdeclared hearly
    exact exists_leads_of_overtaken hclosed horder hdeclared hearly
  · intro hbefore
    exact Except.ok.inj (horder.symm.trans (order_eq_names hbefore))
  · exact p.names_select _ fun name hname => (p.contains_iff_mem_names name).mpr (harranged.mem_names hname)
  · exact Table.perm_entries_select _ htopological.perm
  · exact order_select htopological _

section Witness

/-- The second entry needs the last, which for this reason overtakes the third. -/
private def overtaking : Palette Float :=
  ⟨[("plain", .hsl (.degrees 0) 0.5 0.5), ("shade", .adjust "dark" 0 (-0.25)), ("white", .literal ⟨255, 255, 255⟩),
    ("dark", .hsl (.degrees 10) 0.5 0.25)], by decide⟩

theorem order_departs_only_as_forced_overtaking :
    overtaking.Closed ∧ overtaking.Acyclic ∧ overtaking.order = .ok ["plain", "dark", "shade", "white"] ∧
      StandsBefore overtaking.names "white" "dark" ∧
      ∃ name, (name = "white" ∨ StandsBefore overtaking.names name "white") ∧
        TransGen overtaking.Refers name "dark" := by
  have hcheck : overtaking.checkReferences Table.empty = .ok () := rfl
  have hclosed : overtaking.Closed := closed_of_checkReferences hcheck
  have horder : overtaking.order = .ok ["plain", "dark", "shade", "white"] := by decide +kernel
  have hacyclic : overtaking.Acyclic := (exists_order_iff_acyclic hclosed).mp ⟨_, horder⟩
  have hdeclared : StandsBefore overtaking.names "white" "dark" := ⟨["plain", "shade", "white"], [], rfl, by decide⟩
  have hearly : StandsBefore ["plain", "dark", "shade", "white"] "dark" "white" :=
    ⟨["plain", "dark", "shade"], [], rfl, by decide⟩
  obtain ⟨names, hfound, hforced, -⟩ := order_departs_only_as_forced hclosed hacyclic
  obtain rfl := Except.ok.inj (horder.symm.trans hfound)
  exact ⟨hclosed, hacyclic, horder, hdeclared, hforced "white" "dark" hdeclared hearly⟩

end Witness

end EditorTheme.Palette
