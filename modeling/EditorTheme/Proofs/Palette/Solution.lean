import EditorTheme.Palette.Resolution
import EditorTheme.Proofs.Expression.Evaluation
import EditorTheme.Proofs.Palette.Order
import EditorTheme.Proofs.Table
import Mathlib.Data.Set.Basic

/-!
The equations of a palette: the color of each name is that of its expression, read against the colors of all
names. Computing a palette solves its equations, finds a solution wherever there is one and no cycle, and a
part of a palette that refers to nothing outside has at most one solution, whatever stands around it.
-/

set_option autoImplicit false
set_option relaxedAutoImplicit false

namespace EditorTheme

variable {α : Type}

/-- What an expression names is there, the hues in a table and the colors in a list of names. -/
def Expression.DeclaredIn (e : Expression α) (hues : HueTable α) (names : List String) : Prop :=
  e.hueReferences ⊆ hues.names ∧ e.references ⊆ names

namespace Palette

/-- All that the entries of a palette name is declared. -/
def Declared (p : Palette α) (hues : HueTable α) : Prop :=
  ∀ name e, p.find? name = some e → e.DeclaredIn hues p.names

theorem Declared.closed {p : Palette α} {hues : HueTable α} (h : p.Declared hues) : p.Closed := by
  intro name reference hrefers
  obtain ⟨e, he, href⟩ := refers_iff.mp hrefers
  exact (h name e he).2 href

theorem wellFounded_of_acyclic {p : Palette α} (hclosed : p.Closed) (hacyclic : p.Acyclic) :
    WellFounded (Function.swap p.Refers) := by
  obtain ⟨order, horder⟩ := (exists_order_iff_acyclic hclosed).mpr hacyclic
  obtain ⟨harranged, hall⟩ := arranged_of_order hclosed horder
  refine ⟨fun name => Acc.intro name ?_⟩
  intro reference hrefers
  have hname : name ∈ order := hall (mem_names_of_refers hrefers)
  exact (harranged.acc name hname).inv hrefers

section Check

theorem find?_missing_eq_none_iff {β : Type} (t : Table β) (names : List String) :
    (names.find? fun name => !t.contains name) = none ↔ names ⊆ t.names := by
  simp [List.find?_eq_none, Table.contains_iff_mem_names, List.subset_def]

theorem checkEntry_eq_ok_iff {p : Palette α} {hues : HueTable α} {name : String} {e : Expression α} :
    checkEntry p hues name e = .ok () ↔ e.DeclaredIn hues p.names := by
  unfold checkEntry Expression.DeclaredIn
  rw [← find?_missing_eq_none_iff hues, ← find?_missing_eq_none_iff p]
  cases e.hueReferences.find? fun hue => !hues.contains hue with
  | some hue => simp
  | none => cases e.references.find? fun r => !p.contains r <;> simp

theorem checkReferences_eq_ok_iff {p : Palette α} {hues : HueTable α} :
    p.checkReferences hues = .ok () ↔ p.Declared hues := by
  unfold checkReferences
  rw [List.forM_eq_forM, forM_eq_ok_iff]
  constructor
  · intro h name e he
    exact checkEntry_eq_ok_iff.mp (h (name, e) ((p.mem_entries_iff name e).mpr he))
  · intro h entry hentry
    exact checkEntry_eq_ok_iff.mpr (h entry.1 entry.2 ((p.mem_entries_iff entry.1 entry.2).mp hentry))

theorem closed_of_checkReferences {p : Palette α} {hues : HueTable α} (h : p.checkReferences hues = .ok ()) :
    p.Closed := (checkReferences_eq_ok_iff.mp h).closed

end Check

variable [Scalar α]

/-- The color that a table has for a name is that of an expression read against the table. -/
def Equation (hues : HueTable α) (table : Table (Color α)) (name : String) (e : Expression α) : Prop :=
  ∃ c, e.eval hues table = .ok c ∧ table.find? name = some c

/-- A table has colors for exactly the names of a palette, and they satisfy the equations of all entries. -/
structure Solves (p : Palette α) (hues : HueTable α) (table : Table (Color α)) : Prop where
  names : ∀ name, name ∈ table.names ↔ name ∈ p.names
  equation : ∀ name e, p.find? name = some e → Equation hues table name e

theorem Solves.declared {p : Palette α} {hues : HueTable α} {table : Table (Color α)}
    (h : p.Solves hues table) : p.Declared hues := by
  intro name e he
  obtain ⟨c, hc, -⟩ := h.equation name e he
  constructor
  · intro hue hhue
    exact Expression.hue_mem_names_of_eval_ok hc hhue
  · intro reference href
    exact (h.names reference).mp (Expression.mem_names_of_eval_ok hc href)

theorem Equation.congr {hues : HueTable α} {table other : Table (Color α)} {name : String} {e : Expression α}
    (h : Equation hues table name e) (hname : table.find? name = other.find? name)
    (hrefs : ∀ reference ∈ e.references, table.find? reference = other.find? reference) :
    Equation hues other name e := by
  obtain ⟨c, hc, hfound⟩ := h
  refine ⟨c, ?_, hname ▸ hfound⟩
  rw [← Expression.eval_congr (fun _ _ => rfl) hrefs]
  exact hc

section Computation

variable {p : Palette α} {hues : HueTable α}

theorem computeNext_of_find? {name : String} {e : Expression α} (he : p.find? name = some e)
    (colors : Table (Color α)) :
    p.computeNext hues colors name = (e.eval hues colors >>= fun c => pure (colors.insert name c)) := by
  unfold computeNext
  rw [he]

/-- Computing along an arrangement gives colors to just these names, and the equations of all of them hold for
the colors at the end: what an entry refers to has its color before it and keeps it. -/
theorem equations_of_compute {order : List String} (harranged : Arranged p order) {colors : Table (Color α)}
    (h : order.foldlM (p.computeNext hues) Table.empty = .ok colors) :
    colors.names = order ∧ ∀ name ∈ order, ∀ e, p.find? name = some e → Equation hues colors name e := by
  induction harranged generalizing colors with
  | nil =>
    obtain rfl := pure_eq_ok.mp h
    exact ⟨rfl, by simp⟩
  | @snoc done last hdone hlast hnew hrefs ih =>
    rw [foldlM_concat] at h
    obtain ⟨before, hbefore, hstep⟩ := bind_eq_ok.mp h
    obtain ⟨hnames, hequations⟩ := ih hbefore
    obtain ⟨e, he⟩ := (p.mem_names_iff last).mp hlast
    rw [computeNext_of_find? he] at hstep
    obtain ⟨c, hc, hinsert⟩ := bind_eq_ok.mp hstep
    obtain rfl := pure_eq_ok.mp hinsert
    -- Entries already computed are about names in `done` only, where the new color changes nothing.
    have hkept : ∀ x ∈ done, before.find? x = (before.insert last c).find? x := by
      intro x hx
      have hne : x ≠ last := fun heq => hnew (heq ▸ hx)
      exact (before.find?_insert_of_ne hne c).symm
    refine ⟨by rw [Table.names_insert, hnames, if_neg hnew], ?_⟩
    intro name hname e' he'
    rcases List.mem_append.mp hname with hold | hsame
    · refine (hequations name hold e' he').congr (hkept name hold) ?_
      intro reference href
      exact hkept reference (hdone.mem_of_refers hold (refers_iff.mpr ⟨e', he', href⟩))
    · obtain rfl := List.mem_singleton.mp hsame
      obtain rfl : e = e' := Option.some.inj (he.symm.trans he')
      refine ⟨c, ?_, Table.find?_insert_self before name c⟩
      rw [← Expression.eval_congr (fun _ _ => rfl) fun reference href =>
        hkept reference (hrefs reference (refers_iff.mpr ⟨e, he, href⟩))]
      exact hc

theorem compute_of_solves {order : List String} (harranged : Arranged p order) {table : Table (Color α)}
    (hsolves : p.Solves hues table) :
    ∃ colors, order.foldlM (p.computeNext hues) Table.empty = .ok colors ∧
      ∀ name ∈ order, colors.find? name = table.find? name := by
  induction harranged with
  | nil => exact ⟨Table.empty, rfl, by simp⟩
  | @snoc done last _ hlast hnew hrefs ih =>
    obtain ⟨colors, hcolors, hagree⟩ := ih
    obtain ⟨e, he⟩ := (p.mem_names_iff last).mp hlast
    obtain ⟨c, hc, hfound⟩ := hsolves.equation last e he
    have heval : e.eval hues colors = .ok c := by
      rw [Expression.eval_congr (fun _ _ => rfl) fun reference href =>
        hagree reference (hrefs reference (refers_iff.mpr ⟨e, he, href⟩))]
      exact hc
    refine ⟨colors.insert last c, ?_, ?_⟩
    · rw [foldlM_concat, bind_of_ok hcolors, computeNext_of_find? he, bind_of_ok heval]
      rfl
    · intro name hname
      rcases List.mem_append.mp hname with hold | hsame
      · have hne : name ≠ last := fun heq => hnew (heq ▸ hold)
        rw [colors.find?_insert_of_ne hne c]
        exact hagree name hold
      · rw [List.mem_singleton.mp hsame, colors.find?_insert_self, hfound]

theorem compute_ok_or_notFinite (hdeclared : p.Declared hues) {order : List String}
    (harranged : Arranged p order) :
    (∃ colors, order.foldlM (p.computeNext hues) Table.empty = .ok colors) ∨
      ∃ h s l, order.foldlM (p.computeNext hues) Table.empty = .error (.notFinite h s l) := by
  induction harranged with
  | nil => exact Or.inl ⟨Table.empty, rfl⟩
  | @snoc done last hdone hlast _ hrefs ih =>
    rcases ih with ⟨colors, hcolors⟩ | ⟨h, s, l, herror⟩
    · obtain ⟨e, he⟩ := (p.mem_names_iff last).mp hlast
      have hnames : colors.names = done := (equations_of_compute hdone hcolors).1
      have hthere : ∀ reference ∈ e.references, reference ∈ colors.names := by
        intro reference href
        rw [hnames]
        exact hrefs reference (refers_iff.mpr ⟨e, he, href⟩)
      rw [foldlM_concat, bind_of_ok hcolors, computeNext_of_find? he]
      rcases Expression.eval_colorOrNotFinite (hdeclared last e he).1 hthere with ⟨c, hc⟩ | ⟨h, s, l, herror⟩
      · exact Or.inl ⟨colors.insert last c, by rw [bind_of_ok hc]; rfl⟩
      · exact Or.inr ⟨h, s, l, bind_of_error herror _⟩
    · rw [foldlM_concat]
      exact Or.inr ⟨h, s, l, bind_of_error herror _⟩

theorem evaluate_of_order (hdeclared : p.Declared hues) {order : List String} (horder : p.order = .ok order) :
    p.evaluate hues = (order.foldlM (p.computeNext hues) Table.empty >>= fun colors =>
      pure (colors.select p.names p.distinct)) := by
  have hchecked : p.checkedOrder hues = .ok order := by
    unfold checkedOrder
    rw [bind_of_ok (checkReferences_eq_ok_iff.mpr hdeclared), horder]
    rfl
  unfold evaluate
  rw [bind_of_ok hchecked]

theorem declared_of_evaluate {table : Table (Color α)} (h : p.evaluate hues = .ok table) :
    p.Declared hues ∧ ∃ order, p.order = .ok order := by
  obtain ⟨order, hchecked, -⟩ := bind_eq_ok.mp h
  obtain ⟨⟨⟩, hcheck, horder⟩ := bind_eq_ok.mp hchecked
  refine ⟨checkReferences_eq_ok_iff.mp hcheck, ?_⟩
  cases hfound : p.order with
  | ok names => exact ⟨names, rfl⟩
  | error names =>
    rw [hfound] at horder
    cases horder

theorem solves_of_evaluate {table : Table (Color α)} (h : p.evaluate hues = .ok table) :
    p.Solves hues table ∧ table.names = p.names := by
  obtain ⟨hdeclared, order, horder⟩ := declared_of_evaluate h
  obtain ⟨harranged, hall⟩ := arranged_of_order hdeclared.closed horder
  rw [evaluate_of_order hdeclared horder] at h
  obtain ⟨colors, hcolors, hselect⟩ := bind_eq_ok.mp h
  obtain rfl := pure_eq_ok.mp hselect
  obtain ⟨hnames, hequations⟩ := equations_of_compute harranged hcolors
  have hselected : ∀ name ∈ p.names, colors.find? name = (colors.select p.names p.distinct).find? name :=
    fun name hname => (colors.find?_select p.distinct hname).symm
  have htable : (colors.select p.names p.distinct).names = p.names := by
    refine colors.names_select p.distinct fun name hname => ?_
    rw [colors.contains_iff_mem_names, hnames]
    exact hall hname
  refine ⟨⟨fun name => by rw [htable], ?_⟩, htable⟩
  intro name e he
  have hname : name ∈ p.names := (p.mem_names_iff name).mpr ⟨e, he⟩
  refine (hequations name (hall hname) e he).congr (hselected name hname) ?_
  intro reference href
  exact hselected reference ((hdeclared name e he).2 href)

theorem exists_evaluate_iff :
    (∃ table, p.evaluate hues = .ok table) ↔ p.Acyclic ∧ ∃ table, p.Solves hues table := by
  constructor
  · rintro ⟨table, h⟩
    obtain ⟨hdeclared, horder⟩ := declared_of_evaluate h
    exact ⟨(exists_order_iff_acyclic hdeclared.closed).mp horder, table, (solves_of_evaluate h).1⟩
  · rintro ⟨hacyclic, table, hsolves⟩
    have hdeclared : p.Declared hues := hsolves.declared
    obtain ⟨order, horder⟩ := (exists_order_iff_acyclic hdeclared.closed).mpr hacyclic
    obtain ⟨harranged, -⟩ := arranged_of_order hdeclared.closed horder
    obtain ⟨colors, hcolors, -⟩ := compute_of_solves harranged hsolves
    refine ⟨colors.select p.names p.distinct, ?_⟩
    rw [evaluate_of_order hdeclared horder, bind_of_ok hcolors]
    rfl

end Computation

/-- Two solutions agree on every set of names that refers to nothing outside itself, where the palettes have the
same entries and the hues that these name are the same. The rest of the palettes and of the hues may differ. -/
theorem Solves.agree {p q : Palette α} {hues otherHues : HueTable α} {table other : Table (Color α)}
    (hp : p.Solves hues table) (hq : q.Solves otherHues other) (hwf : WellFounded (Function.swap p.Refers))
    {S : Set String} (hS : ∀ name ∈ S, ∀ reference, p.Refers name reference → reference ∈ S)
    (hentries : ∀ name ∈ S, p.find? name = q.find? name)
    (hhues : ∀ name ∈ S, ∀ e, p.find? name = some e → ∀ hue ∈ e.hueReferences,
      hues.find? hue = otherHues.find? hue) :
    ∀ name ∈ S, table.find? name = other.find? name := by
  intro name
  induction name using hwf.induction with
  | _ name ih =>
    intro hname
    cases he : p.find? name with
    | none =>
      -- A name of the set that is declared nowhere has no color in either table.
      have hnot : name ∉ p.names := fun h => by simpa [he] using (p.mem_names_iff name).mp h
      have hnotq : name ∉ q.names := fun h => by
        simpa [← hentries name hname, he] using (q.mem_names_iff name).mp h
      rw [Table.find?_eq_none fun h => hnot ((hp.names name).mp h),
        Table.find?_eq_none fun h => hnotq ((hq.names name).mp h)]
    | some e =>
      obtain ⟨c, hc, hfound⟩ := hp.equation name e he
      obtain ⟨d, hd, hother⟩ := hq.equation name e (by rw [← hentries name hname, he])
      have heval : e.eval hues table = e.eval otherHues other := by
        refine Expression.eval_congr (hhues name hname e he) fun reference href => ?_
        have hrefers : p.Refers name reference := refers_iff.mpr ⟨e, he, href⟩
        exact ih reference hrefers (hS name hname reference hrefers)
      have hsame : c = d := by
        have hboth : Except.ok c = Except.ok d := hc.symm.trans (heval.trans hd)
        exact Except.ok.inj hboth
      rw [hfound, hother, hsame]

theorem evaluate_eq_ok_iff {p : Palette α} {hues : HueTable α} {table : Table (Color α)} :
    p.evaluate hues = .ok table ↔ p.Acyclic ∧ p.Solves hues table ∧ table.names = p.names := by
  constructor
  · intro h
    obtain ⟨hsolves, hnames⟩ := solves_of_evaluate h
    exact ⟨(exists_evaluate_iff.mp ⟨table, h⟩).1, hsolves, hnames⟩
  · rintro ⟨hacyclic, hsolves, hnames⟩
    obtain ⟨result, hresult⟩ := exists_evaluate_iff.mpr ⟨hacyclic, table, hsolves⟩
    obtain ⟨hresultSolves, hresultNames⟩ := solves_of_evaluate hresult
    have hagree := hresultSolves.agree hsolves (wellFounded_of_acyclic hsolves.declared.closed hacyclic) (S := Set.univ)
      (fun _ _ _ _ => trivial) (fun _ _ => rfl) (fun _ _ _ _ _ _ => rfl)
    obtain rfl : result = table := Table.eq_of_find? (hresultNames.trans hnames.symm) fun name _ => hagree name trivial
    exact hresult

end Palette

end EditorTheme
