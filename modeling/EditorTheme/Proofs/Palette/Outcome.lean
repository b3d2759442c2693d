import EditorTheme.Proofs.Expression.Reading
import EditorTheme.Proofs.Palette.Texts

/-!
What can become of a palette. Reading, the check of references, the search for an order and the evaluation
follow each other, each over all entries; the faults of a later phase come up only where the earlier ones find
nothing, and within a phase the first entry in declaration order decides.
-/

set_option autoImplicit false
set_option relaxedAutoImplicit false

namespace EditorTheme

theorem Table.exists_entries_of_firstFailing {β : Type} {t : Table β} {P : String → Prop} {name : String} {value : β}
    (h : FirstFailing P t.names name) (hfound : t.find? name = some value) :
    ∃ before after, t.entries = before ++ (name, value) :: after ∧
      ∀ entry ∈ before, t.find? entry.1 = some entry.2 ∧ P entry.1 := by
  obtain ⟨names, rest, hnames, hbefore, -⟩ := h
  obtain ⟨before, value', after, hentries, rfl⟩ := Table.exists_entries_of_names hnames
  have hmem : (name, value') ∈ t.entries := by simp [hentries]
  obtain rfl := Option.some.inj (((t.mem_entries_iff name value').mp hmem).symm.trans hfound)
  refine ⟨before, after, hentries, fun entry hentry => ?_⟩
  have hthere : (entry.1, entry.2) ∈ t.entries := by simp [hentries, hentry]
  exact ⟨(t.mem_entries_iff entry.1 entry.2).mp hthere, hbefore entry.1 (List.mem_map_of_mem hentry)⟩

namespace Palette

open Relation

variable {α : Type} [Scalar α]

namespace Texts

def Readable (α : Type) [Scalar α] (texts : Texts) (name : String) : Prop :=
  ∃ e : Expression α, texts.Declares name e

/-- The text of a name reads as an expression that names nothing undeclared. -/
def Sound (texts : Texts) (hues : HueTable α) (name : String) : Prop :=
  ∃ e, texts.Declares name e ∧ e.DeclaredIn hues texts.names

def Acyclic (α : Type) [Scalar α] (texts : Texts) : Prop := ∀ name, ¬ TransGen (texts.Refers α) name name

end Texts

/-- What becomes of a palette, by its texts and its hues. The conditions exclude one another: a rule asks for all
that the rules before it report the lack of. -/
inductive Outcome (texts : Texts) (hues : HueTable α) : Except (ThemeError α) (Table (Color α)) → Prop
  | unreadable {name text : String} {error : ThemeError α} :
      FirstFailing (texts.Readable α) texts.names name → texts.find? name = some text →
      Expression.read text = .error error →
      ((∃ fault, error = .badExpression (.text text) fault) ∨ ∃ literal, error = .invalidHex literal) →
      Outcome texts hues (.error error)
  | unknownHue {name hue : String} {e : Expression α} :
      (∀ name ∈ texts.names, texts.Readable α name) → FirstFailing (texts.Sound hues) texts.names name →
      texts.Declares name e → FirstFailing (· ∈ hues.names) e.hueReferences hue →
      Outcome texts hues (.error (.unknownHue hue))
  | unknownReference {name reference : String} {e : Expression α} :
      (∀ name ∈ texts.names, texts.Readable α name) → FirstFailing (texts.Sound hues) texts.names name →
      texts.Declares name e → e.hueReferences ⊆ hues.names →
      FirstFailing (· ∈ texts.names) e.references reference →
      Outcome texts hues (.error (.unknownReference reference name))
  | cycle {names : List String} :
      (∀ name ∈ texts.names, texts.Sound hues name) → ¬ texts.Acyclic α →
      Outcome texts hues (.error (.cycle names))
  | notFinite {h s l : α} :
      (∀ name ∈ texts.names, texts.Sound hues name) → texts.Acyclic α →
      Outcome texts hues (.error (.notFinite h s l))
  | resolved {table : Table (Color α)} :
      (∀ name ∈ texts.names, texts.Sound hues name) → texts.Acyclic α →
      Outcome texts hues (.ok table)

section Check

variable {p : Palette α} {hues : HueTable α}

omit [Scalar α] in
theorem checkEntry_of_unknownHue {name hue : String} {e : Expression α}
    (h : FirstFailing (· ∈ hues.names) e.hueReferences hue) :
    checkEntry p hues name e = .error (.unknownHue hue) := by
  unfold checkEntry
  rw [find?_of_firstFailing hues.contains_iff_mem_names h]

omit [Scalar α] in
theorem checkEntry_of_unknownReference {name reference : String} {e : Expression α}
    (hhues : e.hueReferences ⊆ hues.names) (h : FirstFailing (· ∈ p.names) e.references reference) :
    checkEntry p hues name e = .error (.unknownReference reference name) := by
  unfold checkEntry
  rw [(find?_missing_eq_none_iff hues e.hueReferences).mpr hhues, find?_of_firstFailing p.contains_iff_mem_names h]

omit [Scalar α] in
theorem checkReferences_eq_error {name : String} {e : Expression α} {error : ThemeError α}
    (h : FirstFailing (fun name => ∃ e, p.find? name = some e ∧ e.DeclaredIn hues p.names) p.names name)
    (he : p.find? name = some e) (herror : checkEntry p hues name e = .error error) :
    p.checkReferences hues = .error error := by
  obtain ⟨before, after, hentries, hbefore⟩ := Table.exists_entries_of_firstFailing h he
  unfold checkReferences
  rw [List.forM_eq_forM, hentries]
  refine forM_eq_error (fun entry hentry => ?_) herror
  obtain ⟨hthere, e', hfound, hdeclared⟩ := hbefore entry hentry
  obtain rfl := Option.some.inj (hthere.symm.trans hfound)
  exact checkEntry_eq_ok_iff.mpr hdeclared

end Check

section Phases

variable {texts : Texts} {hues : HueTable α}

theorem parse_eq_error {name text : String} {error : ThemeError α}
    (hfirst : FirstFailing (texts.Readable α) texts.names name) (hfound : texts.find? name = some text)
    (hread : (Expression.read text : Except (ThemeError α) (Expression α)) = .error error) :
    (parse texts.entries : Except (ThemeError α) (Palette α)) = .error error := by
  obtain ⟨before, after, hentries, hbefore⟩ := Table.exists_entries_of_firstFailing hfirst hfound
  unfold parse
  rw [hentries]
  refine ofEntries_eq_error (fun entry hentry => ?_) hread
  obtain ⟨hthere, e, value, hvalue, he⟩ := hbefore entry hentry
  obtain rfl := Option.some.inj (hthere.symm.trans hvalue)
  exact ⟨e, he⟩

theorem exists_reads (h : ∀ name ∈ texts.names, texts.Readable α name) :
    ∃ p : Palette α, parse texts.entries = .ok p ∧ Reads texts p := by
  have hread : ∀ entry ∈ texts.entries, ∃ e : Expression α, Expression.read entry.2 = .ok e := by
    intro entry hentry
    obtain ⟨e, text, hfound, he⟩ := h entry.1 (List.mem_map_of_mem hentry)
    obtain rfl := Option.some.inj (((texts.mem_entries_iff entry.1 entry.2).mp hentry).symm.trans hfound)
    exact ⟨e, he⟩
  obtain ⟨p, hp⟩ := exists_ofEntries hread
  exact ⟨p, hp, reads_of_parse hp⟩

theorem Reads.declared_iff {p : Palette α} (h : Reads texts p) :
    p.Declared hues ↔ ∀ name ∈ texts.names, texts.Sound hues name := by
  rw [← h.names]
  constructor
  · intro hdeclared name hname
    obtain ⟨e, he⟩ := (p.mem_names_iff name).mp hname
    exact ⟨e, (h.find?_eq_some_iff name e).mp he, h.names ▸ hdeclared name e he⟩
  · intro hsound name e he
    obtain ⟨e', he', hdeclared⟩ := hsound name ((p.mem_names_iff name).mpr ⟨e, he⟩)
    obtain rfl := ((h.find?_eq_some_iff name e).mp he).unique he'
    rw [h.names]
    exact hdeclared

theorem Reads.acyclic_iff {p : Palette α} (h : Reads texts p) : p.Acyclic ↔ texts.Acyclic α := by
  unfold Acyclic Texts.Acyclic
  rw [h.refers_eq]

theorem resolve_of_parse {p : Palette α} (h : parse texts.entries = .ok p) :
    resolve texts.entries hues = p.evaluate hues := bind_of_ok h _

theorem outcome_of_not_sound (hreadable : ∀ name ∈ texts.names, texts.Readable α name)
    (hsound : ¬ ∀ name ∈ texts.names, texts.Sound hues name) :
    Outcome texts hues (resolve texts.entries hues) := by
  obtain ⟨p, hparse, hreads⟩ := exists_reads hreadable
  obtain ⟨name, hfirst⟩ := exists_firstFailing hsound
  obtain ⟨before, after, hnames, hbefore, hname⟩ := id hfirst
  obtain ⟨e, he⟩ := hreadable name (by simp [hnames])
  have hfound : p.find? name = some e := (hreads.find?_eq_some_iff name e).mpr he
  have hfirst' : FirstFailing (fun name => ∃ e, p.find? name = some e ∧ e.DeclaredIn hues p.names)
      p.names name := by
    simp only [hreads.names, hreads.find?_eq_some_iff]
    exact hfirst
  have hresult : ∀ error, checkEntry p hues name e = .error error →
      resolve texts.entries hues = .error error := by
    intro error herror
    have hcheck := checkReferences_eq_error hfirst' hfound herror
    rw [resolve_of_parse hparse]
    exact bind_of_error (bind_of_error hcheck _) _
  by_cases hhues : ∀ hue ∈ e.hueReferences, hue ∈ hues.names
  · have hcolors : ¬ ∀ reference ∈ e.references, reference ∈ p.names := by
      intro hall
      exact hname ⟨e, he, fun hue h => hhues hue h, fun reference h => hreads.names ▸ hall reference h⟩
    obtain ⟨reference, hreference⟩ := exists_firstFailing hcolors
    rw [hresult _ (checkEntry_of_unknownReference (fun hue h => hhues hue h) hreference)]
    rw [hreads.names] at hreference
    exact .unknownReference hreadable hfirst he (fun hue h => hhues hue h) hreference
  · obtain ⟨hue, hhue⟩ := exists_firstFailing hhues
    rw [hresult _ (checkEntry_of_unknownHue hhue)]
    exact .unknownHue hreadable hfirst he hhue

theorem outcome_of_sound (hsound : ∀ name ∈ texts.names, texts.Sound hues name) :
    Outcome texts hues (resolve texts.entries hues) := by
  have hreadable : ∀ name ∈ texts.names, texts.Readable α name := by
    intro name hname
    obtain ⟨e, he, -⟩ := hsound name hname
    exact ⟨e, he⟩
  obtain ⟨p, hparse, hreads⟩ := exists_reads hreadable
  have hdeclared : p.Declared hues := hreads.declared_iff.mpr hsound
  rw [resolve_of_parse hparse]
  cases horder : p.order with
  | error names =>
    have hcyclic : ¬ p.Acyclic := by
      obtain ⟨name, hname⟩ := (isCycle_of_order horder).transGen
      exact fun hacyclic => hacyclic name hname
    have hchecked : p.checkedOrder hues = .error (.cycle names) := by
      unfold checkedOrder
      rw [bind_of_ok (checkReferences_eq_ok_iff.mpr hdeclared), horder]
      rfl
    have hresult : p.evaluate hues = .error (.cycle names) := bind_of_error hchecked _
    rw [hresult]
    exact .cycle hsound fun h => hcyclic (hreads.acyclic_iff.mpr h)
  | ok order =>
    have hacyclic : texts.Acyclic α :=
      hreads.acyclic_iff.mp ((exists_order_iff_acyclic hdeclared.closed).mp ⟨order, horder⟩)
    obtain ⟨harranged, -⟩ := arranged_of_order hdeclared.closed horder
    rw [evaluate_of_order hdeclared horder]
    rcases compute_ok_or_notFinite hdeclared harranged with ⟨colors, hcolors⟩ | ⟨h, s, l, herror⟩
    · rw [bind_of_ok hcolors]
      exact .resolved hsound hacyclic
    · rw [bind_of_error herror]
      exact .notFinite hsound hacyclic

end Phases

/-- The outcome of every palette; a color is never read before it is computed, and an unknown hue is never found
out by the evaluation. -/
theorem resolve_outcome (texts : Texts) (hues : HueTable α) :
    Outcome texts hues (resolve texts.entries hues) ∧
      (∀ name, resolve texts.entries hues ≠ .error (.unresolved name)) ∧
      ((∀ name ∈ texts.names, texts.Sound hues name) →
        ∀ hue, resolve texts.entries hues ≠ .error (.unknownHue hue)) := by
  have houtcome : Outcome texts hues (resolve texts.entries hues) := by
    by_cases hreadable : ∀ name ∈ texts.names, texts.Readable α name
    · by_cases hsound : ∀ name ∈ texts.names, texts.Sound hues name
      · exact outcome_of_sound hsound
      · exact outcome_of_not_sound hreadable hsound
    · obtain ⟨name, hfirst⟩ := exists_firstFailing hreadable
      obtain ⟨before, after, hnames, -, hname⟩ := id hfirst
      obtain ⟨text, hfound⟩ := (texts.mem_names_iff name).mp (by simp [hnames])
      cases hread : (Expression.read text : Except (ThemeError α) (Expression α)) with
      | ok e => exact absurd ⟨e, text, hfound, hread⟩ hname
      | error error =>
        have hresult : resolve texts.entries hues = .error error :=
          bind_of_error (parse_eq_error hfirst hfound hread) _
        rw [hresult]
        refine .unreadable hfirst hfound hread ?_
        rcases Expression.error_of_read hread with ⟨-, rfl⟩ | ⟨-, fault, rfl⟩
        · exact Or.inr ⟨_, rfl⟩
        · exact Or.inl ⟨fault, rfl⟩
  -- What is left is read off the list of outcomes: none of its rules ends in the errors that are excluded.
  refine ⟨houtcome, fun name herror => ?_, fun hsound hue herror => ?_⟩
  · rw [herror] at houtcome
    cases houtcome with
    | unreadable _ _ _ hkind => simp at hkind
  · rw [herror] at houtcome
    cases houtcome with
    | unreadable _ _ _ hkind => simp at hkind
    | unknownHue _ hfirst _ _ =>
      obtain ⟨before, after, hnames, -, hname⟩ := hfirst
      exact hname (hsound _ (by simp [hnames]))

end Palette

end EditorTheme
