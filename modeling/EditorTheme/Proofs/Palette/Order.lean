import EditorTheme.Palette.Order
import EditorTheme.Proofs.Sequencing
import Mathlib.Data.List.Chain
import Mathlib.Data.List.Perm.Subperm
import Mathlib.Logic.Relation

/-!
The order in which the colors of a palette are computed. Where everything that is referred to is declared, the
search finds an arrangement of all names, each after those that it refers to, exactly when the references run
in no cycle; otherwise it reports a cycle.
-/

set_option autoImplicit false
set_option relaxedAutoImplicit false

namespace EditorTheme.Palette

open Relation

variable {α : Type}

/-- The entry of a name refers to another name, or to itself. -/
def Refers (p : Palette α) (name reference : String) : Prop := reference ∈ p.references name

/-- Every name that is referred to is declared. -/
def Closed (p : Palette α) : Prop := ∀ name reference, p.Refers name reference → reference ∈ p.names

/-- No name leads back to itself through references. -/
def Acyclic (p : Palette α) : Prop := ∀ name, ¬ TransGen p.Refers name name

/-- Declared names in a row, none of them twice, each after all that it refers to. -/
inductive Arranged (p : Palette α) : List String → Prop
  | nil : Arranged p []
  | snoc {done : List String} {name : String} : Arranged p done → name ∈ p.names → name ∉ done →
      (∀ reference, p.Refers name reference → reference ∈ done) → Arranged p (done ++ [name])

/-- A cycle as it is reported: names that differ, each referring to the next, and at the end the first of them
again. -/
def IsCycle (p : Palette α) (names : List String) : Prop :=
  ∃ first rest, names = first :: rest ++ [first] ∧ (first :: rest).Nodup ∧ List.IsChain p.Refers names

theorem mem_names_of_refers {p : Palette α} {name reference : String} (h : p.Refers name reference) :
    name ∈ p.names := by
  unfold Refers references at h
  cases hfound : p.find? name with
  | none => simp [hfound] at h
  | some e => exact (p.mem_names_iff name).mpr ⟨e, hfound⟩

theorem references_of_find? {p : Palette α} {name : String} {e : Expression α} (h : p.find? name = some e) :
    p.references name = e.references := by
  rw [references, h]
  rfl

theorem refers_iff {p : Palette α} {name reference : String} :
    p.Refers name reference ↔ ∃ e, p.find? name = some e ∧ reference ∈ e.references := by
  unfold Refers references
  cases p.find? name <;> simp

namespace Arranged

variable {p : Palette α} {done : List String}

theorem mem_of_refers (h : Arranged p done) {name reference : String} (hname : name ∈ done)
    (hrefers : p.Refers name reference) : reference ∈ done := by
  induction h with
  | nil => exact absurd hname List.not_mem_nil
  | snoc _ _ _ hrefs ih =>
    rcases List.mem_append.mp hname with hold | hlast
    · exact List.mem_append_left _ (ih hold)
    · rw [List.mem_singleton.mp hlast] at hrefers
      exact List.mem_append_left _ (hrefs reference hrefers)

theorem mem_names (h : Arranged p done) {name : String} (hname : name ∈ done) : name ∈ p.names := by
  induction h with
  | nil => exact absurd hname List.not_mem_nil
  | snoc _ hdeclared _ _ ih =>
    rcases List.mem_append.mp hname with hold | hlast
    · exact ih hold
    · rwa [List.mem_singleton.mp hlast]

theorem acc (h : Arranged p done) : ∀ name ∈ done, Acc (Function.swap p.Refers) name := by
  induction h with
  | nil => simp
  | snoc _ _ _ hrefs ih =>
    intro x hx
    rcases List.mem_append.mp hx with hx | hx
    · exact ih x hx
    · rw [List.mem_singleton.mp hx]
      exact Acc.intro _ fun reference hrefers => ih reference (hrefs reference hrefers)

end Arranged

private theorem not_transGen_self_of_acc {β : Type} {r : β → β → Prop} {b : β} (h : Acc r b) :
    ¬ TransGen r b b := by
  have htrans : Acc (TransGen r) b := h.transGen
  clear h
  induction htrans with
  | intro x _ ih =>
    intro hx
    exact ih x hx hx

theorem acyclic_of_arranged {p : Palette α} {done : List String} (h : Arranged p done)
    (hall : p.names ⊆ done) : p.Acyclic := by
  intro name hcycle
  obtain ⟨next, hnext, -⟩ := TransGen.head'_iff.mp hcycle
  have hacc : Acc (Function.swap p.Refers) name := h.acc name (hall (mem_names_of_refers hnext))
  exact not_transGen_self_of_acc hacc (transGen_swap.mpr hcycle)

theorem IsCycle.leads {p : Palette α} {names : List String} (h : IsCycle p names) {name other : String}
    (hname : name ∈ names) (hother : other ∈ names) : TransGen p.Refers name other := by
  obtain ⟨first, rest, rfl, -, hchain⟩ := h
  have hpairs : (first :: rest ++ [first]).Pairwise (TransGen p.Refers) :=
    (hchain.imp fun _ _ hrefers => TransGen.single hrefers).pairwise
  have hfrom : ∀ x ∈ rest ++ [first], TransGen p.Refers first x := (List.pairwise_cons.mp hpairs).1
  have hto : ∀ x ∈ first :: rest, TransGen p.Refers x first := fun x hx =>
    (List.pairwise_append.mp hpairs).2.2 x hx first (List.mem_singleton.mpr rfl)
  have hfirst : TransGen p.Refers first first := hfrom first (by simp)
  have hmem : ∀ x, x ∈ first :: rest ++ [first] → x ∈ first :: rest := fun x hx => by simpa [or_comm] using hx
  refine (hto name (hmem name hname)).trans ?_
  rcases List.mem_cons.mp (hmem other hother) with rfl | hlater
  · exact hfirst
  · exact hfrom other (List.mem_append_left _ hlater)

theorem IsCycle.transGen {p : Palette α} {names : List String} (h : IsCycle p names) :
    ∃ name, TransGen p.Refers name name := by
  obtain ⟨first, rest, rfl, -⟩ := id h
  exact ⟨first, h.leads (by simp) (by simp)⟩

section Steps

variable {p : Palette α} {path done : List String} {name : String}

theorem visit_of_mem (h : name ∈ done) : p.visit path done name = .ok done := by
  rw [visit, if_pos h]

theorem foldlM_visit_of_subset {references : List String} (h : references ⊆ done) :
    references.foldlM (fun done reference => p.visit path done reference) done = .ok done := by
  induction references with
  | nil => rfl
  | cons reference rest ih =>
    obtain ⟨hfirst, hrest⟩ := List.cons_subset.mp h
    rw [List.foldlM_cons, bind_of_ok (visit_of_mem hfirst), ih hrest]

theorem visit_of_references_subset (hname : name ∈ p.names) (hnew : name ∉ done) (hpath : name ∉ path)
    (hrefs : p.references name ⊆ done) : p.visit path done name = .ok (done ++ [name]) := by
  rw [visit, if_neg hnew, dif_neg hpath, dif_pos hname, bind_of_ok (foldlM_visit_of_subset hrefs)]
  rfl

end Steps

section Agreement

variable {p q : Palette α}

/-- What a search does from a name depends on which of the names that this one leads to are declared, and on what they
refer to. -/
theorem visit_congr {S : Set String} (hS : ∀ name ∈ S, ∀ reference, p.Refers name reference → reference ∈ S)
    (hnames : ∀ name ∈ S, name ∈ q.names ↔ name ∈ p.names) (hrefs : ∀ name ∈ S, q.references name = p.references name)
    {path done : List String} {name : String} (hname : name ∈ S) :
    q.visit path done name = p.visit path done name := by
  fun_induction p.visit path done name with
  | case1 path done name hmem => exact visit_of_mem hmem
  | case2 path done name hdone hpath => rw [visit, if_neg hdone, dif_pos hpath]
  | case3 path done name hdone hpath hdeclared ih =>
    rw [visit, if_neg hdone, dif_neg hpath, dif_pos ((hnames name hname).mpr hdeclared), hrefs name hname]
    refine congrArg (· >>= _) (foldlM_congr (fun reference href done => ?_) done)
    exact ih done reference (hS name hname reference href)
  | case4 path done name hdone hpath hundeclared =>
    rw [visit, if_neg hdone, dif_neg hpath, dif_neg (mt (hnames name hname).mp hundeclared)]

theorem order_congr (hnames : q.names = p.names) (hrefs : ∀ name, q.references name = p.references name) :
    q.order = p.order := by
  rw [order, order, hnames]
  refine foldlM_congr (fun name _ done => ?_) []
  exact visit_congr (S := Set.univ) (fun _ _ _ _ => trivial) (fun _ _ => by rw [hnames]) (fun name _ => hrefs name)
    trivial

end Agreement

/-- What a search adds to the names that are done: they stay arranged and in their places, and none of the
names on the path is among them yet. -/
structure Extends (p : Palette α) (path done after : List String) : Prop where
  arranged : Arranged p after
  kept : done <+: after
  apart : ∀ name ∈ path, name ∉ after

theorem Extends.refl {p : Palette α} {path done : List String} (h : Arranged p done)
    (hpath : ∀ name ∈ path, name ∉ done) : Extends p path done done :=
  ⟨h, List.prefix_refl done, hpath⟩

theorem extends_of_foldlM {p : Palette α} {path names : List String}
    {search : List String → String → Except (List String) (List String)}
    (hsearch : ∀ name ∈ names, ∀ done after, Arranged p done → (∀ x ∈ path, x ∉ done) →
      search done name = .ok after → Extends p path done after ∧ name ∈ after)
    {done after : List String} (hdone : Arranged p done) (hpath : ∀ x ∈ path, x ∉ done)
    (h : names.foldlM search done = .ok after) : Extends p path done after ∧ names ⊆ after := by
  induction names generalizing done with
  | nil =>
    obtain rfl := pure_eq_ok.mp h
    exact ⟨.refl hdone hpath, List.nil_subset _⟩
  | cons name rest ih =>
    rw [List.foldlM_cons] at h
    obtain ⟨next, hnext, hrest⟩ := bind_eq_ok.mp h
    obtain ⟨hstep, hname⟩ := hsearch name List.mem_cons_self done next hdone hpath hnext
    obtain ⟨hlater, hnames⟩ := ih (fun x hx => hsearch x (List.mem_cons_of_mem name hx))
      hstep.arranged hstep.apart hrest
    refine ⟨⟨hlater.arranged, hstep.kept.trans hlater.kept, hlater.apart⟩, ?_⟩
    exact List.cons_subset.mpr ⟨hlater.kept.subset hname, hnames⟩

theorem extends_of_visit {p : Palette α} (hclosed : p.Closed) {path done after : List String} {name : String}
    (hdone : Arranged p done) (hpath : ∀ x ∈ path, x ∉ done) (hname : name ∈ p.names)
    (h : p.visit path done name = .ok after) : Extends p path done after ∧ name ∈ after := by
  fun_induction visit p path done name generalizing after with
  | case1 path done name hmem =>
    cases h
    exact ⟨.refl hdone hpath, hmem⟩
  | case2 => cases h
  | case3 path done name hnew _ hdeclared ih =>
    obtain ⟨reached, hreached, hafter⟩ := bind_eq_ok.mp h
    obtain rfl := pure_eq_ok.mp hafter
    -- The name joins the path before its references are visited, so none of them can put it among the names done.
    have hlonger : ∀ x ∈ path ++ [name], x ∉ done := by
      intro x hx
      rcases List.mem_append.mp hx with hx | hx
      · exact hpath x hx
      · rw [List.mem_singleton.mp hx]
        exact hnew
    obtain ⟨hext, hrefs⟩ := extends_of_foldlM
      (fun reference href done after hdone hpath hvisit =>
        ih done reference hdone hpath (hclosed name reference href) hvisit)
      hdone hlonger hreached
    have hlast : name ∉ reached := hext.apart name (by simp)
    refine ⟨⟨.snoc hext.arranged hdeclared hlast hrefs, ?_, ?_⟩, by simp⟩
    · exact hext.kept.trans (List.prefix_append reached [name])
    · intro x hx hmem
      rcases List.mem_append.mp hmem with hold | hsame
      · exact hext.apart x (List.mem_append_left _ hx) hold
      · rw [List.mem_singleton.mp hsame] at hx
        contradiction
  | case4 => contradiction

section Ways

variable {p : Palette α} {path done : List String} {name : String}

/-- Different names, each referring to the next and the last of them to a further name, which may be one of them. -/
structure Way (p : Palette α) (path : List String) (name : String) : Prop where
  refers : List.IsChain p.Refers (path ++ [name])
  distinct : path.Nodup

theorem Way.start (p : Palette α) (name : String) : Way p [] name := ⟨.singleton name, List.nodup_nil⟩

theorem Way.extend (h : Way p path name) (hnew : name ∉ path) {reference : String} (href : p.Refers name reference) :
    Way p (path ++ [name]) reference where
  refers := by
    refine h.refers.append (.singleton reference) ?_
    intro x hx y hy
    obtain rfl : name = x := by simpa using hx
    obtain rfl : reference = y := by simpa using hy
    exact href
  distinct := List.nodup_append.mpr ⟨h.distinct, by simp, by
    rintro x hx y hy rfl
    exact hnew (List.mem_singleton.mp hy ▸ hx)⟩

theorem Way.subset_names (h : Way p path name) : path ⊆ p.names := by
  intro x hx
  obtain ⟨place, hplace, rfl⟩ := List.getElem_of_mem hx
  have hrefers := List.isChain_iff_getElem.mp h.refers place (by simpa using hplace)
  rw [List.getElem_append_left hplace] at hrefers
  exact mem_names_of_refers hrefers

theorem Way.length_le (h : Way p path name) : path.length ≤ p.names.length :=
  (List.subperm_of_subset h.distinct h.subset_names).length_le

/-- A search fails only by coming back to its own path. It has then gone along names that lead to a first name and are
none of the report, and from there round to this name again. -/
theorem exists_lead_of_visit {names : List String} (hway : Way p path name)
    (h : p.visit path done name = .error names) :
    ∃ lead first rest, names = first :: rest ++ [first] ∧ path ++ [name] <+: lead ++ names ∧
      (lead ++ first :: rest).Nodup ∧ List.IsChain p.Refers (lead ++ names) := by
  fun_induction visit p path done name generalizing names with
  | case1 => cases h
  | case2 path done name _ hmem =>
    -- What is reported starts where the path met the name for the first time.
    obtain ⟨hchain, hnodup⟩ := hway
    obtain ⟨before, after, rfl, hbefore⟩ := List.eq_append_cons_of_mem hmem
    have hdrop : (before ++ name :: after).dropWhile (· ≠ name) = name :: after := by
      rw [List.dropWhile_append_of_pos fun x hx => by simpa using fun e : x = name => hbefore (e ▸ hx)]
      simp
    rw [hdrop] at h
    cases h
    have hpath : (before ++ name :: after) ++ [name] = before ++ (name :: after ++ [name]) :=
      List.append_assoc before (name :: after) [name]
    rw [hpath] at hchain
    exact ⟨before, name, after, rfl, hpath ▸ List.prefix_rfl, hnodup, hchain⟩
  | case3 path done name _ hpath _ ih =>
    rcases bind_eq_error.mp h with hfold | ⟨reached, -, hpure⟩
    · obtain ⟨reference, href, state, hvisit⟩ := exists_of_foldlM_error hfold
      obtain ⟨lead, first, rest, hnames, hstart, hround⟩ := ih state reference (hway.extend hpath href) hvisit
      exact ⟨lead, first, rest, hnames, (List.prefix_append _ [reference]).trans hstart, hround⟩
    · exact absurd hpure pure_ne_error
  | case4 => cases h

theorem isCycle_of_visit {names : List String} (hway : Way p path name)
    (h : p.visit path done name = .error names) : IsCycle p names := by
  obtain ⟨lead, first, rest, rfl, -, hdistinct, hround⟩ := exists_lead_of_visit hway h
  exact ⟨first, rest, rfl, (List.nodup_append.mp hdistinct).2.1, hround.right_of_append⟩

end Ways

theorem extends_of_searches {p : Palette α} (hclosed : p.Closed) {roots done after : List String}
    (hroots : roots ⊆ p.names) (hdone : Arranged p done)
    (h : roots.foldlM (fun done name => p.visit [] done name) done = .ok after) :
    Extends p [] done after ∧ roots ⊆ after := by
  refine extends_of_foldlM (fun name hname done after hdone hpath hvisit => ?_) hdone (fun _ hx => ?_) h
  · exact extends_of_visit hclosed hdone hpath (hroots hname) hvisit
  · exact absurd hx List.not_mem_nil

theorem arranged_of_order {p : Palette α} (hclosed : p.Closed) {names : List String}
    (h : p.order = .ok names) : Arranged p names ∧ p.names ⊆ names := by
  obtain ⟨hext, hall⟩ := extends_of_searches hclosed (List.Subset.refl _) .nil h
  exact ⟨hext.arranged, hall⟩

theorem isCycle_of_order {p : Palette α} {names : List String} (h : p.order = .error names) :
    IsCycle p names := by
  obtain ⟨name, -, done, hvisit⟩ := exists_of_foldlM_error h
  exact isCycle_of_visit (.start p name) hvisit

theorem exists_order_iff_acyclic {p : Palette α} (hclosed : p.Closed) :
    (∃ names, p.order = .ok names) ↔ p.Acyclic := by
  constructor
  · rintro ⟨names, h⟩
    obtain ⟨harranged, hall⟩ := arranged_of_order hclosed h
    exact acyclic_of_arranged harranged hall
  · intro hacyclic
    cases h : p.order with
    | ok names => exact ⟨names, rfl⟩
    | error names =>
      obtain ⟨name, hname⟩ := (isCycle_of_order h).transGen
      exact absurd hname (hacyclic name)

end EditorTheme.Palette
