import EditorTheme.Double
import EditorTheme.Palette.Resolution
import EditorTheme.Proofs.Palette.Solution

/-!
Palettes given as texts. What a resolved palette means is said here without the program's own palette, order
and partial tables: by the texts, the expression that each of them reads as, and the table of all colors.
-/

set_option autoImplicit false
set_option relaxedAutoImplicit false

namespace EditorTheme.Palette

open Relation

/-- Expression texts by name, in the order of declaration. -/
abbrev Texts := Table String

variable {α : Type}

section Reading

variable {β : Type} {readEntry : β → Except (ThemeError α) (Expression α)}

theorem entries_of_ofEntries {entries : List (String × β)} (hdistinct : (entries.map Prod.fst).Nodup)
    {p : Palette α} (h : ofEntries readEntry entries = .ok p) :
    p.names = entries.map Prod.fst ∧
      ∀ name e, (name, e) ∈ p.entries ↔ ∃ value, (name, value) ∈ entries ∧ readEntry value = .ok e := by
  induction entries using List.reverseRecOn generalizing p with
  | nil =>
    obtain rfl := pure_eq_ok.mp h
    exact ⟨rfl, by simp [Table.empty]⟩
  | append_singleton entries last ih =>
    rw [ofEntries, foldlM_concat] at h
    obtain ⟨before, hbefore, hstep⟩ := bind_eq_ok.mp h
    obtain ⟨e, he, hinsert⟩ := bind_eq_ok.mp hstep
    obtain rfl := pure_eq_ok.mp hinsert
    rw [List.map_append, List.nodup_append] at hdistinct
    obtain ⟨hnames, hentries⟩ := ih hdistinct.1 hbefore
    -- Since names differ, the last entry replaces none of those before it.
    have hnew : last.1 ∉ before.names := by
      rw [hnames]
      exact fun hmem => hdistinct.2.2 last.1 hmem last.1 (by simp) rfl
    refine ⟨?_, fun name e' => ?_⟩
    · rw [Table.names_insert, if_neg hnew, hnames, List.map_append]
      rfl
    · rw [Table.entries_insert_of_not_mem hnew]
      simp only [List.mem_append, List.mem_singleton, hentries]
      constructor
      · rintro (⟨value, hmem, hvalue⟩ | heq)
        · exact ⟨value, Or.inl hmem, hvalue⟩
        · cases heq
          exact ⟨last.2, Or.inr rfl, he⟩
      · rintro ⟨value, hmem | rfl, hvalue⟩
        · exact Or.inl ⟨value, hmem, hvalue⟩
        · exact Or.inr (by rw [Except.ok.inj (hvalue.symm.trans he)])

theorem exists_ofEntries {entries : List (String × β)}
    (hread : ∀ entry ∈ entries, ∃ e, readEntry entry.2 = .ok e) : ∃ p, ofEntries readEntry entries = .ok p := by
  induction entries using List.reverseRecOn with
  | nil => exact ⟨Table.empty, rfl⟩
  | append_singleton entries last ih =>
    obtain ⟨p, hp⟩ := ih fun entry hmem => hread entry (List.mem_append_left _ hmem)
    obtain ⟨e, he⟩ := hread last (by simp)
    refine ⟨p.insert last.1 e, ?_⟩
    rw [ofEntries] at hp ⊢
    rw [foldlM_concat, bind_of_ok hp, bind_of_ok he]
    rfl

theorem ofEntries_eq_error {before after : List (String × β)} {entry : String × β} {error : ThemeError α}
    (hbefore : ∀ earlier ∈ before, ∃ e, readEntry earlier.2 = .ok e) (hentry : readEntry entry.2 = .error error) :
    ofEntries readEntry (before ++ entry :: after) = .error error := by
  obtain ⟨p, hp⟩ := exists_ofEntries hbefore
  rw [ofEntries] at hp ⊢
  rw [List.foldlM_append, bind_of_ok hp, List.foldlM_cons]
  exact bind_of_error (bind_of_error hentry _) _

end Reading

variable [Scalar α]

namespace Texts

/-- A name has a text that reads as an expression. -/
def Declares (texts : Texts) (name : String) (e : Expression α) : Prop :=
  ∃ text, texts.find? name = some text ∧ Expression.read text = .ok e

/-- The text of a name reads as an expression that refers to another name, or to the name itself. -/
def Refers (α : Type) [Scalar α] (texts : Texts) (name reference : String) : Prop :=
  ∃ e : Expression α, texts.Declares name e ∧ reference ∈ e.references

/-- In a table of colors, every name of the texts has the color of its text, read as an expression and evaluated
against that same table. -/
def SolvedBy (texts : Texts) (hues : HueTable α) (table : Table (Color α)) : Prop :=
  ∀ name text, texts.find? name = some text →
    ∃ c, (Expression.read text >>= Expression.eval hues table) = .ok c ∧ table.find? name = some c

theorem Declares.unique {texts : Texts} {name : String} {e e' : Expression α} (h : texts.Declares name e)
    (h' : texts.Declares name e') : e = e' := by
  obtain ⟨text, hfound, hread⟩ := h
  obtain ⟨text', hfound', hread'⟩ := h'
  obtain rfl : text = text' := Option.some.inj (hfound.symm.trans hfound')
  exact Except.ok.inj (hread.symm.trans hread')

end Texts

/-- A palette holds what texts read as, in their order. -/
structure Reads (texts : Texts) (p : Palette α) : Prop where
  names : p.names = texts.names
  find?_eq_some_iff : ∀ name e, p.find? name = some e ↔ texts.Declares name e

theorem reads_of_parse {texts : Texts} {p : Palette α} (h : parse texts.entries = .ok p) : Reads texts p := by
  obtain ⟨hnames, hentries⟩ := entries_of_ofEntries texts.distinct h
  refine ⟨hnames, fun name e => ?_⟩
  rw [← p.mem_entries_iff, hentries]
  simp only [Texts.Declares, Table.mem_entries_iff]

namespace Reads

variable {texts : Texts} {p : Palette α} {hues : HueTable α}

theorem refers_eq (h : Reads texts p) : p.Refers = texts.Refers α := by
  funext name reference
  simp only [refers_iff, Texts.Refers, h.find?_eq_some_iff]

theorem solves_iff (h : Reads texts p) (table : Table (Color α)) :
    p.Solves hues table ↔ (∀ name, name ∈ table.names ↔ name ∈ texts.names) ∧ texts.SolvedBy hues table := by
  constructor
  · intro hsolves
    refine ⟨fun name => by rw [hsolves.names, h.names], fun name text hfound => ?_⟩
    have hname : name ∈ p.names := by
      rw [h.names]
      exact (texts.mem_names_iff name).mpr ⟨text, hfound⟩
    obtain ⟨e, he⟩ := (p.mem_names_iff name).mp hname
    obtain ⟨text', hfound', hread⟩ := (h.find?_eq_some_iff name e).mp he
    obtain rfl : text = text' := Option.some.inj (hfound.symm.trans hfound')
    obtain ⟨c, hc, htable⟩ := hsolves.equation name e he
    exact ⟨c, by rw [bind_of_ok hread, hc], htable⟩
  · rintro ⟨hnames, hsolved⟩
    refine ⟨fun name => by rw [hnames, h.names], fun name e he => ?_⟩
    obtain ⟨text, hfound, hread⟩ := (h.find?_eq_some_iff name e).mp he
    obtain ⟨c, hc, htable⟩ := hsolved name text hfound
    rw [bind_of_ok hread] at hc
    exact ⟨c, hc, htable⟩

end Reads

theorem resolve_eq_ok_iff {texts : Texts} {hues : HueTable α} {table : Table (Color α)} :
    resolve texts.entries hues = .ok table ↔
      ∃ p, parse texts.entries = .ok p ∧ p.evaluate hues = .ok table := bind_eq_ok

theorem names_of_resolve {texts : Texts} {hues : HueTable α} {table : Table (Color α)}
    (h : resolve texts.entries hues = .ok table) : table.names = texts.names := by
  obtain ⟨p, hparse, hevaluate⟩ := resolve_eq_ok_iff.mp h
  exact (solves_of_evaluate hevaluate).2.trans (reads_of_parse hparse).names

/-- A resolved palette has the declared names in their order, every name has the color of its own expression by
the finished table, and no other table on these names has that property. -/
theorem resolve_unique_solution {texts : Texts} {hues : HueTable α} {table : Table (Color α)}
    (h : resolve texts.entries hues = .ok table) :
    table.names = texts.names ∧ texts.SolvedBy hues table ∧
      ∀ other : Table (Color α), (∀ name, name ∈ other.names ↔ name ∈ texts.names) →
        texts.SolvedBy hues other → ∀ name, other.find? name = table.find? name := by
  obtain ⟨p, hparse, hevaluate⟩ := resolve_eq_ok_iff.mp h
  have hreads : Reads texts p := reads_of_parse hparse
  obtain ⟨hsolves, hnames⟩ := solves_of_evaluate hevaluate
  have hacyclic : p.Acyclic := (exists_evaluate_iff.mp ⟨table, hevaluate⟩).1
  have hwf := wellFounded_of_acyclic hsolves.declared.closed hacyclic
  refine ⟨hnames.trans hreads.names, ((hreads.solves_iff table).mp hsolves).2, ?_⟩
  intro other hothernames hother name
  have hsolved : p.Solves hues other := (hreads.solves_iff other).mpr ⟨hothernames, hother⟩
  -- The set of all names refers to nothing outside itself.
  have hclosed : ∀ name ∈ Set.univ, ∀ reference, p.Refers name reference → reference ∈ Set.univ :=
    fun _ _ _ _ => trivial
  exact hsolved.agree hsolves hwf hclosed (fun _ _ => rfl)
    (fun _ _ _ _ _ _ => rfl) name trivial

def scattered : Texts :=
  ⟨[("deep", "darken(blend, 0.25)"), ("blend", "mix(base, lit, 0.5)"), ("base", "hsl($blue, 0.5, 0.5)"),
    ("same", " deep "), ("lit", "#FF8040")], by decide⟩

theorem resolve_unique_solution_scattered :
    ∃ table : Table (Color Float), resolve scattered.entries (Table.empty.insert "blue" 210) = .ok table ∧
      table.names = ["deep", "blend", "base", "same", "lit"] ∧
      scattered.SolvedBy (Table.empty.insert "blue" 210) table ∧
      ∀ other : Table (Color Float), (∀ name, name ∈ other.names ↔ name ∈ scattered.names) →
        scattered.SolvedBy (Table.empty.insert "blue" 210) other →
        ∀ name, other.find? name = table.find? name := by
  have hok : (resolve scattered.entries (Table.empty.insert "blue" (210 : Float))).isOk = true := by decide +kernel
  obtain ⟨table, htable⟩ := exists_ok_of_isOk hok
  exact ⟨table, htable, resolve_unique_solution htable⟩

end EditorTheme.Palette
