import EditorTheme.Proofs.Palette.Outcome

/-!
What the color of a name depends on. Two palettes that agree on a set of names which refers to nothing outside
itself give these names the same colors, whatever else they declare and in whatever order; and whether a
palette resolves does not depend on the order of its entries.
-/

set_option autoImplicit false
set_option relaxedAutoImplicit false

namespace EditorTheme.Palette

variable {α : Type} [Scalar α]

/-- Two palettes with their hues agree on a set of names: the set refers to nothing outside itself, its names
have the same expressions in both, and the hues used by these have the same values in both. -/
structure AgreeOn (texts others : Texts) (hues otherHues : HueTable α) (S : Set String) : Prop where
  closed : ∀ name ∈ S, ∀ reference, texts.Refers α name reference → reference ∈ S
  declares : ∀ name ∈ S, ∀ e : Expression α, texts.Declares name e ↔ others.Declares name e
  hues : ∀ name ∈ S, ∀ e : Expression α, texts.Declares name e →
    ∀ hue ∈ e.hueReferences, hues.find? hue = otherHues.find? hue

theorem find?_eq_of_agreeOn {texts others : Texts} {hues otherHues : HueTable α}
    {table other : Table (Color α)} (htable : resolve texts.entries hues = .ok table)
    (hother : resolve others.entries otherHues = .ok other) {S : Set String}
    (h : AgreeOn texts others hues otherHues S) : ∀ name ∈ S, table.find? name = other.find? name := by
  obtain ⟨p, hp, hptable⟩ := resolve_eq_ok_iff.mp htable
  obtain ⟨q, hq, hqother⟩ := resolve_eq_ok_iff.mp hother
  have hpreads : Reads texts p := reads_of_parse hp
  have hqreads : Reads others q := reads_of_parse hq
  have hpsolves : p.Solves hues table := (solves_of_evaluate hptable).1
  have hacyclic : p.Acyclic := (exists_evaluate_iff.mp ⟨table, hptable⟩).1
  refine hpsolves.agree (solves_of_evaluate hqother).1
    (wellFounded_of_acyclic hpsolves.declared.closed hacyclic) ?_ ?_ ?_
  · rw [hpreads.refers_eq]
    exact h.closed
  · intro name hname
    apply Option.ext
    intro e
    rw [hpreads.find?_eq_some_iff, hqreads.find?_eq_some_iff]
    exact h.declares name hname e
  · intro name hname e he
    exact h.hues name hname e ((hpreads.find?_eq_some_iff name e).mp he)

theorem exists_resolve_iff {texts : Texts} {hues : HueTable α} :
    (∃ table, resolve texts.entries hues = .ok table) ↔
      texts.Acyclic α ∧ ∃ table : Table (Color α),
        (∀ name, name ∈ table.names ↔ name ∈ texts.names) ∧ texts.SolvedBy hues table := by
  constructor
  · rintro ⟨table, h⟩
    obtain ⟨p, hparse, hevaluate⟩ := resolve_eq_ok_iff.mp h
    have hreads : Reads texts p := reads_of_parse hparse
    have hacyclic : p.Acyclic := (exists_evaluate_iff.mp ⟨table, hevaluate⟩).1
    exact ⟨hreads.acyclic_iff.mp hacyclic, table, (hreads.solves_iff table).mp (solves_of_evaluate hevaluate).1⟩
  · rintro ⟨hacyclic, table, hnames, hsolved⟩
    have hreadable : ∀ name ∈ texts.names, texts.Readable α name := by
      intro name hname
      obtain ⟨text, hfound⟩ := (texts.mem_names_iff name).mp hname
      obtain ⟨c, hc, -⟩ := hsolved name text hfound
      obtain ⟨e, he, -⟩ := bind_eq_ok.mp hc
      exact ⟨e, text, hfound, he⟩
    obtain ⟨p, hparse, hreads⟩ := exists_reads hreadable
    have hsolves : p.Solves hues table := (hreads.solves_iff table).mpr ⟨hnames, hsolved⟩
    obtain ⟨result, hresult⟩ := exists_evaluate_iff.mpr ⟨hreads.acyclic_iff.mpr hacyclic, table, hsolves⟩
    exact ⟨result, resolve_eq_ok_iff.mpr ⟨p, hparse, hresult⟩⟩

section Reordering

variable {texts others : Texts} (h : texts.entries.Perm others.entries)

include h

theorem declares_iff_of_perm (name : String) (e : Expression α) :
    texts.Declares name e ↔ others.Declares name e := by
  unfold Texts.Declares
  rw [Table.find?_eq_of_perm h name]

theorem exists_resolve_of_perm {hues : HueTable α} (hresolves : ∃ table, resolve texts.entries hues = .ok table) :
    ∃ table, resolve others.entries hues = .ok table := by
  obtain ⟨hacyclic, table, hnames, hsolved⟩ := exists_resolve_iff.mp hresolves
  refine exists_resolve_iff.mpr ⟨?_, table, ?_, ?_⟩
  · have hrefers : others.Refers α = texts.Refers α := by
      funext name reference
      simp only [Texts.Refers, declares_iff_of_perm h]
    unfold Texts.Acyclic
    rw [hrefers]
    exact hacyclic
  · intro name
    rw [hnames]
    exact (h.map Prod.fst).mem_iff
  · intro name text hfound
    exact hsolved name text ((Table.find?_eq_of_perm h name).trans hfound)

theorem agreeOn_univ_of_perm (hues : HueTable α) : AgreeOn texts others hues hues Set.univ where
  closed := fun _ _ _ _ => trivial
  declares := fun name _ e => declares_iff_of_perm h name e
  hues := fun _ _ _ _ _ _ => rfl

end Reordering

/-- The colors of a set of names depend on nothing outside it, and the order of declaration decides neither
whether a palette resolves nor any of its colors. -/
theorem resolve_local (texts others : Texts) (hues otherHues : HueTable α) :
    (∀ table other, resolve texts.entries hues = .ok table → resolve others.entries otherHues = .ok other →
      ∀ S : Set String, AgreeOn texts others hues otherHues S →
        ∀ name ∈ S, table.find? name = other.find? name) ∧
    (texts.entries.Perm others.entries →
      ((∃ table, resolve texts.entries hues = .ok table) ↔ ∃ table, resolve others.entries hues = .ok table) ∧
      ∀ table other, resolve texts.entries hues = .ok table → resolve others.entries hues = .ok other →
        ∀ name, table.find? name = other.find? name) := by
  refine ⟨fun table other htable hother S hagree => find?_eq_of_agreeOn htable hother hagree, fun hperm => ?_⟩
  refine ⟨⟨exists_resolve_of_perm hperm, exists_resolve_of_perm hperm.symm⟩, ?_⟩
  intro table other htable hother name
  exact find?_eq_of_agreeOn htable hother (agreeOn_univ_of_perm hperm hues) name trivial

section Witness

private def tinted : Texts :=
  ⟨[("tint", "darken(lit, 0.25)"), ("lit", "#FF8040"), ("base", "hsl($blue, 0.5, 0.5)")], by decide⟩

private def retinted : Texts :=
  ⟨[("lit", " #ff8040"), ("base", "hsl($blue, 0, 1)"), ("tint", "darken( lit , .25)")], by decide⟩

private def tintedReversed : Texts := ⟨tinted.entries.reverse, by decide⟩

private def blue (hue : Float) : HueTable Float := Table.empty.insert "blue" hue

private theorem agreeOn_tint : AgreeOn tinted retinted (blue 210) (blue 30) {"tint", "lit"} := by
  have htint : tinted.Declares "tint" (.adjust "lit" 0 (-0.25) : Expression Float) := ⟨_, rfl, rfl⟩
  have hlit : tinted.Declares "lit" (.literal ⟨255, 128, 64⟩ : Expression Float) := ⟨_, rfl, rfl⟩
  have htint' : retinted.Declares "tint" (.adjust "lit" 0 (-0.25) : Expression Float) := ⟨_, rfl, rfl⟩
  have hlit' : retinted.Declares "lit" (.literal ⟨255, 128, 64⟩ : Expression Float) := ⟨_, rfl, rfl⟩
  constructor
  · rintro name (rfl | rfl) reference ⟨e, he, href⟩
    · obtain rfl := he.unique htint
      exact Or.inr (List.mem_singleton.mp href)
    · obtain rfl := he.unique hlit
      exact absurd href List.not_mem_nil
  · rintro name (rfl | rfl) e
    · exact ⟨fun he => he.unique htint ▸ htint', fun he => he.unique htint' ▸ htint⟩
    · exact ⟨fun he => he.unique hlit ▸ hlit', fun he => he.unique hlit' ▸ hlit⟩
  · rintro name (rfl | rfl) e he hue hhue
    · obtain rfl := he.unique htint
      exact absurd hhue List.not_mem_nil
    · obtain rfl := he.unique hlit
      exact absurd hhue List.not_mem_nil

theorem resolve_local_tinted :
    (∃ table other, resolve tinted.entries (blue 210) = .ok table ∧
      resolve retinted.entries (blue 30) = .ok other ∧ table.find? "tint" = other.find? "tint") ∧
    ∃ table other, resolve tinted.entries (blue 210) = .ok table ∧
      resolve tintedReversed.entries (blue 210) = .ok other ∧ ∀ name, table.find? name = other.find? name := by
  have hok : (resolve tinted.entries (blue 210)).isOk = true := by decide +kernel
  have hok' : (resolve retinted.entries (blue 30)).isOk = true := by decide +kernel
  obtain ⟨table, htable⟩ := exists_ok_of_isOk hok
  obtain ⟨other, hother⟩ := exists_ok_of_isOk hok'
  have hperm : tinted.entries.Perm tintedReversed.entries := (List.reverse_perm tinted.entries).symm
  obtain ⟨hresolves, hsame⟩ := (resolve_local tinted tintedReversed (blue 210) (blue 210)).2 hperm
  obtain ⟨reversed, hreversed⟩ := hresolves.mp ⟨table, htable⟩
  refine ⟨⟨table, other, htable, hother, ?_⟩, table, reversed, htable, hreversed, hsame table reversed htable hreversed⟩
  exact (resolve_local tinted retinted (blue 210) (blue 30)).1 table other htable hother _ agreeOn_tint "tint"
    (Or.inl rfl)

end Witness

end EditorTheme.Palette
