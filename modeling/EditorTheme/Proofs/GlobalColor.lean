import EditorTheme.GlobalColor
import EditorTheme.Proofs.Palette.Extension

/-!
Expressions written in place of the color of a global. Such an expression means what it would mean in the palette under
a name of its own: it has the same color there, and what is wrong with it in one place is wrong with it in the other.
-/

set_option autoImplicit false
set_option relaxedAutoImplicit false

namespace EditorTheme

variable {α : Type}

namespace GlobalColor

/-- What is wrong with the value of a global, and what is wrong with the palette entry of the same text: the same fault,
except that a color that is missing is reported with the global there and with the entry here. -/
inductive SameFault (global entry : String) : ThemeError α → ThemeError α → Prop
  | badExpression (text : Described) (fault : SyntaxFault) :
      SameFault global entry (.badExpression text fault) (.badExpression text fault)
  | invalidHex (literal : Described) : SameFault global entry (.invalidHex literal) (.invalidHex literal)
  | unknownHue (hue : String) : SameFault global entry (.unknownHue hue) (.unknownHue hue)
  | notFinite (h s l : α) : SameFault global entry (.notFinite h s l) (.notFinite h s l)
  | unknownColor (reference : String) :
      SameFault global entry (.unknownColor reference global) (.unknownReference reference entry)

/-- The color of a global, and the colors of a palette with an entry more than `table` has colors: both fail, or the
entry has the color of the global and nothing else has changed. -/
inductive SameOutcome (global entry : String) (table : Table (Color α)) :
    Except (ThemeError α) (Option (Color α)) → Except (ThemeError α) (Table (Color α)) → Prop
  | color (c : Color α) : SameOutcome global entry table (.ok (some c)) (.ok (table.insert entry c))
  | fault {f f' : ThemeError α} :
      SameFault global entry f f' → SameOutcome global entry table (.error f) (.error f')

namespace SameOutcome

variable {global entry : String} {table : Table (Color α)} {here : Except (ThemeError α) (Option (Color α))}
  {there : Except (ThemeError α) (Table (Color α))}

theorem color_iff (h : SameOutcome global entry table here there) (c : Color α) :
    here = .ok (some c) ↔ there = .ok (table.insert entry c) := by
  constructor
  · rintro rfl
    cases h
    rfl
  · rintro rfl
    generalize hlonger : table.insert entry c = longer at h
    cases h with
    | color d =>
      have hsame : some d = some c := by
        rw [← table.find?_insert_self entry d, ← hlonger, table.find?_insert_self]
      rw [hsame]

theorem exists_color {longer : Table (Color α)} (h : SameOutcome global entry table here there)
    (hthere : there = .ok longer) : ∃ c, longer = table.insert entry c := by
  subst hthere
  cases h with
  | color c => exact ⟨c, rfl⟩

theorem exists_fault {f : ThemeError α} (h : SameOutcome global entry table here there) (hhere : here = .error f) :
    ∃ f', there = .error f' ∧ SameFault global entry f f' := by
  subst hhere
  cases h with
  | fault hfault => exact ⟨_, rfl, hfault⟩

theorem exists_fault_of_entry {f' : ThemeError α} (h : SameOutcome global entry table here there)
    (hthere : there = .error f') : ∃ f, here = .error f ∧ SameFault global entry f f' := by
  subst hthere
  cases h with
  | fault hfault => exact ⟨_, rfl, hfault⟩

theorem unknownColor_iff (h : SameOutcome global entry table here there) (reference : String) :
    here = .error (.unknownColor reference global) ↔ there = .error (.unknownReference reference entry) := by
  constructor
  · intro hhere
    obtain ⟨f', hthere, hfault⟩ := h.exists_fault hhere
    cases hfault
    exact hthere
  · intro hthere
    obtain ⟨f, hhere, hfault⟩ := h.exists_fault_of_entry hthere
    cases hfault
    exact hhere

end SameOutcome

variable [Scalar α] {hues : HueTable α} {table : Table (Color α)} {global entry value : String}

theorem read_of_isExpression (htrim : Text.trimmed value = value) (hnot : value ∉ table.names)
    (hexpression : Expression.isExpression value = true) :
    read table hues global value = (do
      let e ← Expression.read value
      return some (← ofExpression table hues global e)) := by
  have hhyphen : value ≠ "-" := by
    rintro rfl
    exact absurd hexpression (by decide)
  have habsent : (!table.contains value) = true := by
    simpa using fun h => hnot ((table.contains_iff_mem_names value).mp h)
  simp only [read, htrim]
  rw [if_pos ⟨hhyphen, habsent, hexpression⟩]

/-- A global looks for missing colors first and leaves the hues to the evaluation, the palette looks for missing hues
first; since no expression refers to both, they find the same. -/
theorem ofExpression_sameOutcome {p : Palette α} (hnames : p.names = table.names) (e : Expression α) :
    SameOutcome global entry table (do return some (← ofExpression table hues global e)) (do
      p.checkEntry hues entry e
      return table.insert entry (← e.eval hues table)) := by
  by_cases hcolors : e.references ⊆ table.names
  · have hchecked : ofExpression table hues global e = e.eval hues table := by
      rw [ofExpression, (Palette.find?_missing_eq_none_iff table e.references).mpr hcolors]
    rw [hchecked]
    by_cases hhues : e.hueReferences ⊆ hues.names
    · have hentry : p.checkEntry hues entry e = .ok () :=
        Palette.checkEntry_eq_ok_iff.mpr ⟨hhues, hnames ▸ hcolors⟩
      rw [bind_of_ok hentry]
      rcases Expression.eval_colorOrNotFinite hhues hcolors with ⟨c, hc⟩ | ⟨h, s, l, herror⟩
      · rw [bind_of_ok hc, bind_of_ok hc]
        exact .color c
      · rw [bind_of_error herror, bind_of_error herror]
        exact .fault (.notFinite h s l)
    · obtain ⟨hue, hfirst⟩ := exists_firstFailing (P := (· ∈ hues.names)) fun hall => hhues fun hue h => hall hue h
      obtain ⟨before, after, hsplit, -, hmissing⟩ := id hfirst
      have hhue : hue ∈ e.hueReferences := by simp [hsplit]
      have heval := Expression.eval_of_unknownHue hhue hmissing table
      rw [bind_of_error heval, bind_of_error (Palette.checkEntry_of_unknownHue hfirst)]
      exact .fault (.unknownHue hue)
  · obtain ⟨reference, hfirst⟩ :=
      exists_firstFailing (P := (· ∈ table.names)) fun hall => hcolors fun reference h => hall reference h
    obtain ⟨before, after, hsplit, -, -⟩ := id hfirst
    have href : reference ∈ e.references := by simp [hsplit]
    have hnohue : e.hueReferences ⊆ hues.names := by
      rw [Expression.hueReferences_eq_nil href]
      exact List.nil_subset _
    have hmissing : ofExpression table hues global e = .error (.unknownColor reference global) := by
      rw [ofExpression, find?_of_firstFailing table.contains_iff_mem_names hfirst]
    have hentry : p.checkEntry hues entry e = .error (.unknownReference reference entry) :=
      Palette.checkEntry_of_unknownReference hnohue (hnames ▸ hfirst)
    rw [bind_of_error hmissing, bind_of_error hentry]
    exact .fault (.unknownColor reference)

theorem read_sameOutcome {texts : Palette.Texts} (hresolves : Palette.resolve texts.entries hues = .ok table)
    (htrim : Text.trimmed value = value) (hnot : value ∉ texts.names)
    (hexpression : Expression.isExpression value = true) (hnew : entry ∉ texts.names)
    (hself : ∀ e : Expression α, Expression.read value = .ok e → entry ∉ e.references) :
    SameOutcome global entry table (read table hues global value)
      (Palette.resolve (texts.insert entry value).entries hues) := by
  have htable : table.names = texts.names := Palette.names_of_resolve hresolves
  obtain ⟨p, hnames, hextended⟩ := Palette.resolve_insert hresolves hnew hself
  rw [read_of_isExpression htrim (htable ▸ hnot) hexpression, hextended]
  cases hread : (Expression.read value : Except (ThemeError α) (Expression α)) with
  | ok e => exact ofExpression_sameOutcome hnames e
  | error f =>
    rcases Expression.error_of_read hread with ⟨-, rfl⟩ | ⟨-, fault, rfl⟩
    · exact .fault (.invalidHex _)
    · exact .fault (.badExpression _ fault)

/-- An expression gives a global a color exactly when the palette resolves with one more entry that holds the expression
under a name of its own, and then the palette has this color there and all others as before. Where one fails the other
fails with the same fault. -/
theorem read_iff_declared {texts : Palette.Texts} (global : String)
    (hresolves : Palette.resolve texts.entries hues = .ok table) (htrim : Text.trimmed value = value)
    (hnot : value ∉ texts.names) (hexpression : Expression.isExpression value = true) (hnew : entry ∉ texts.names)
    (hself : ∀ e : Expression α, Expression.read value = .ok e → entry ∉ e.references) :
    (∀ c, read table hues global value = .ok (some c) ↔
      Palette.resolve (texts.insert entry value).entries hues = .ok (table.insert entry c)) ∧
    (∀ longer, Palette.resolve (texts.insert entry value).entries hues = .ok longer →
      ∃ c, longer = table.insert entry c) ∧
    (∀ f, read table hues global value = .error f → ∃ f',
      Palette.resolve (texts.insert entry value).entries hues = .error f' ∧ SameFault global entry f f') ∧
    (∀ f', Palette.resolve (texts.insert entry value).entries hues = .error f' → ∃ f,
      read table hues global value = .error f ∧ SameFault global entry f f') ∧
    ∀ reference, read table hues global value = .error (.unknownColor reference global) ↔
      Palette.resolve (texts.insert entry value).entries hues = .error (.unknownReference reference entry) := by
  have houtcome : SameOutcome global entry table (read table hues global value)
      (Palette.resolve (texts.insert entry value).entries hues) :=
    read_sameOutcome hresolves htrim hnot hexpression hnew hself
  exact ⟨houtcome.color_iff, fun _ => houtcome.exists_color, fun _ => houtcome.exists_fault,
    fun _ => houtcome.exists_fault_of_entry, houtcome.unknownColor_iff⟩

theorem read_iff_declared_scattered :
    ∃ table : Table (Color Float),
      Palette.resolve Palette.scattered.entries (Table.empty.insert "blue" 210) = .ok table ∧
      (∃ c, read table (Table.empty.insert "blue" 210) "terminal_color_1" "mix(base, lit, 0.25)" = .ok (some c) ∧
        Palette.resolve (Palette.scattered.insert "shade" "mix(base, lit, 0.25)").entries
          (Table.empty.insert "blue" 210) = .ok (table.insert "shade" c)) ∧
      read table (Table.empty.insert "blue" 210) "terminal_color_1" "mix(base, pale, 0.25)" =
        .error (.unknownColor "pale" "terminal_color_1") := by
  have hok : (Palette.resolve Palette.scattered.entries (Table.empty.insert "blue" (210 : Float))).isOk = true := by
    decide +kernel
  have hlonger : (Palette.resolve (Palette.scattered.insert "shade" "mix(base, lit, 0.25)").entries
      (Table.empty.insert "blue" (210 : Float))).isOk = true := by
    decide +kernel
  obtain ⟨table, htable⟩ := exists_ok_of_isOk hok
  obtain ⟨longer, hlonger⟩ := exists_ok_of_isOk hlonger
  have hread : ∀ e : Expression Float, Expression.read "mix(base, lit, 0.25)" = .ok e → "shade" ∉ e.references := by
    intro e he
    have hmix : Expression.read "mix(base, lit, 0.25)" = .ok (Expression.mix "base" "lit" (0.25 : Float)) := rfl
    obtain rfl := Except.ok.inj (hmix.symm.trans he)
    decide
  have hread' : ∀ e : Expression Float, Expression.read "mix(base, pale, 0.25)" = .ok e → "shade" ∉ e.references := by
    intro e he
    have hmix : Expression.read "mix(base, pale, 0.25)" = .ok (Expression.mix "base" "pale" (0.25 : Float)) := rfl
    obtain rfl := Except.ok.inj (hmix.symm.trans he)
    decide
  obtain ⟨hcolor, hextends, -⟩ := read_iff_declared "terminal_color_1" htable (by decide +kernel)
    (by decide +kernel) (by decide +kernel) (by decide +kernel) hread
  obtain ⟨-, -, -, -, hunknown⟩ := read_iff_declared "terminal_color_1" htable (by decide +kernel)
    (by decide +kernel) (by decide +kernel) (by decide +kernel) hread'
  obtain ⟨c, rfl⟩ := hextends longer hlonger
  exact ⟨table, htable, ⟨c, (hcolor c).mpr hlonger, hlonger⟩, (hunknown "pale").mpr rfl⟩

end GlobalColor

end EditorTheme
