import EditorTheme.Proofs.Expression.Grammar
import EditorTheme.Proofs.Failure
import EditorTheme.Proofs.Text.Words
import EditorTheme.Theme.Document

/-!
Which tables of values are theme documents, what the documents hold, and which fault is reported of the other tables. A
document is read from its six fields alone: each of them admits values of one shape, some may be left out, and the first
field that is not in order is blamed, a section of texts with its first entry that is no text.
-/

set_option autoImplicit false
set_option relaxedAutoImplicit false

namespace EditorTheme

namespace ThemeDocument

/-- What a theme file is asked for. -/
inductive Field where
  | hues
  | name
  | background
  | colors
  | highlights
  | globals
  deriving DecidableEq

inductive IsText : Value → Prop
  | mk (s : String) : IsText (.text s)

inductive Visible : String → Prop
  | mk {s : String} {c : Char} (hmem : c ∈ s.toList) (h : Text.isBlank c = false) : Visible s

def textTable (texts : List (String × String)) : Value := .table (texts.map fun entry => (entry.1, .text entry.2))

namespace Field

def key : Field → String
  | .hues => "hues"
  | .name => "name"
  | .background => "background"
  | .colors => "colors"
  | .highlights => "highlights"
  | .globals => "globals"

/-- The fields in the order in which they are looked at. -/
def all : List Field := [.hues, .name, .background, .colors, .highlights, .globals]

inductive Optional : Field → Prop
  | hues : Optional .hues
  | highlights : Optional .highlights
  | globals : Optional .globals

/-- The fields that are tables of texts. -/
inductive HoldsTexts : Field → Prop
  | colors : HoldsTexts .colors
  | highlights : HoldsTexts .highlights
  | globals : HoldsTexts .globals

/-- The shape that the value of a field has to have. -/
def Admits (value : Value) : Field → Prop
  | .hues => ∃ entries, value = .table entries
  | .name => ∃ s, value = .text s ∧ Expression.Name s.toList
  | .background => ∃ s, value = .text s ∧ Visible s
  | .colors | .highlights | .globals => ∃ entries, value = .table entries ∧ ∀ entry ∈ entries, IsText entry.2

/-- A field is in order: it has a value of its shape, or it has none and may be left out. -/
def Sound (data : List (String × Value)) (field : Field) : Prop :=
  match data.lookup field.key with
  | none => field.Optional
  | some value => field.Admits value

/-- What is reported of a field that is not in order: the first entry that is no text where the field is a table that
should hold texts, and else the value as a whole, which is absent where there is none. -/
inductive Blames (data : List (String × Value)) : Field → Option String → Value → Prop
  | entry {field : Field} {entries : List (String × Value)} {name : String} {value : Value} (h : field.HoldsTexts)
      (hfound : data.lookup field.key = some (.table entries))
      (hfirst : FirstFailing (fun entry => IsText entry.2) entries (name, value)) : Blames data field (some name) value
  | whole {field : Field} (h : field.HoldsTexts → ∀ entries, data.lookup field.key ≠ some (.table entries)) :
      Blames data field none ((data.lookup field.key).getD .absent)

end Field

/-- What a document holds is what stands in the table of values, unchanged and in its order; a section that is left out
is empty. -/
structure Holds (data : List (String × Value)) (d : ThemeDocument) : Prop where
  hues : (data.lookup "hues").getD (.table []) = .table d.hues
  name : data.lookup "name" = some (.text d.name)
  isName : Expression.Name d.name.toList
  background : data.lookup "background" = some (.text d.background)
  visible : Visible d.background
  colors : data.lookup "colors" = some (textTable d.colors)
  highlights : (data.lookup "highlights").getD (.table []) = textTable d.highlights
  globals : (data.lookup "globals").getD (.table []) = textTable d.globals

variable {α : Type} {data : List (String × Value)} {key : String} {value : Value}

section Sections

variable {entries : List (String × Value)} {texts : List (String × String)}

theorem textEntry_eq_ok_iff {entry : String × Value} {result : String × String} :
    (textEntry key entry : Except (Failure α) (String × String)) = .ok result ↔
      entry = (result.1, .text result.2) := by
  obtain ⟨name, value⟩ := entry
  obtain ⟨other, s⟩ := result
  cases value <;> simp [textEntry]

theorem textEntry_of_not_isText {entry : String × Value} (h : ¬ IsText entry.2) :
    (textEntry key entry : Except (Failure α) (String × String)) =
      .error (.showing entry.2 (.invalidEntry key (some entry.1))) := by
  obtain ⟨name, value⟩ := entry
  cases value with
  | text s => exact absurd (IsText.mk s) h
  | _ => rfl

theorem mapM_textEntry_eq_ok_iff :
    entries.mapM (textEntry (α := α) key) = .ok texts ↔ entries = texts.map fun entry => (entry.1, .text entry.2) := by
  induction entries generalizing texts with
  | nil => cases texts <;> simp
  | cons entry rest ih =>
    rw [List.mapM_cons]
    simp only [bind_eq_ok, pure_eq_ok, textEntry_eq_ok_iff, ih]
    constructor
    · rintro ⟨first, rfl, others, rfl, rfl⟩
      rfl
    · intro h
      cases texts with
      | nil => cases h
      | cons first others =>
        obtain ⟨hfirst, hothers⟩ := List.cons.inj h
        exact ⟨first, hfirst, others, hothers, rfl⟩

theorem textSection_eq_ok_iff :
    (textSection key value : Except (Failure α) (List (String × String))) = .ok texts ↔ value = textTable texts := by
  cases value with
  | table entries => simp only [textSection, mapM_textEntry_eq_ok_iff, textTable, Value.table.injEq]
  | _ => simp [textSection, textTable]

theorem textSection_of_firstFailing {name : String}
    (h : FirstFailing (fun entry => IsText entry.2) entries (name, value)) :
    (textSection key (.table entries) : Except (Failure α) (List (String × String))) =
      .error (.showing value (.invalidEntry key (some name))) := by
  obtain ⟨before, after, rfl, hbefore, hnot⟩ := h
  refine mapM_eq_error (fun earlier hearlier => ?_) (textEntry_of_not_isText hnot)
  obtain ⟨name, value⟩ := earlier
  obtain ⟨s⟩ := hbefore _ hearlier
  exact ⟨(name, s), rfl⟩

theorem textSection_of_not_table (h : ∀ entries, value ≠ .table entries) :
    (textSection key value : Except (Failure α) (List (String × String))) = .error (.showing value (.invalidEntry key none)) := by
  cases value with
  | table entries => exact absurd rfl (h entries)
  | _ => rfl

theorem textTable_injective : Function.Injective textTable := by
  intro texts others h
  have hmap := Value.table.inj h
  refine List.map_injective_iff.mpr ?_ hmap
  rintro ⟨name, s⟩ ⟨other, s'⟩ heq
  obtain ⟨hname, hs⟩ := Prod.mk.inj heq
  exact Prod.ext hname (Value.text.inj hs)

theorem exists_textTable_iff : (∃ texts, .table entries = textTable texts) ↔ ∀ entry ∈ entries, IsText entry.2 := by
  induction entries with
  | nil => exact iff_of_true ⟨[], rfl⟩ fun _ h => absurd h List.not_mem_nil
  | cons entry rest ih =>
    obtain ⟨name, value⟩ := entry
    rw [List.forall_mem_cons, ← ih]
    constructor
    · rintro ⟨texts, h⟩
      cases texts with
      | nil => cases h
      | cons first others =>
        obtain ⟨hfirst, hothers⟩ := List.cons.inj (Value.table.inj h)
        obtain ⟨rfl, rfl⟩ := Prod.mk.inj hfirst
        exact ⟨.mk first.2, others, congrArg Value.table hothers⟩
    · rintro ⟨⟨s⟩, texts, h⟩
      have hrest : rest = texts.map fun entry => (entry.1, .text entry.2) := Value.table.inj h
      exact ⟨(name, s) :: texts, by rw [hrest]; rfl⟩

end Sections

section Readers

theorem hueSection_eq_ok_iff {entries : List (String × Value)} :
    (hueSection data : Except (Failure α) (List (String × Value))) = .ok entries ↔
      (data.lookup "hues").getD (.table []) = .table entries := by
  unfold hueSection
  cases data.lookup "hues" with
  | none => simp
  | some value => cases value <;> simp

theorem hueSection_of_not_table {value : Value} (hfound : data.lookup "hues" = some value)
    (h : ∀ entries, value ≠ .table entries) :
    (hueSection data : Except (Failure α) (List (String × Value))) = .error (.showing value (.invalidEntry "hues" none)) := by
  rw [hueSection, hfound]
  cases value with
  | table entries => exact absurd rfl (h entries)
  | _ => rfl

theorem trim_isEmpty_iff {s : String} : (Text.trim s.toList).isEmpty = true ↔ ¬ Visible s := by
  rw [List.isEmpty_iff, Text.trim_eq_nil_iff]
  constructor
  · rintro hall ⟨hmem, hblank⟩
    rw [hall _ hmem] at hblank
    cases hblank
  · intro h c hc
    by_contra hblank
    exact h (.mk hc (Bool.eq_false_iff.mpr hblank))

theorem visible_of_name {s : String} (h : Expression.Name s.toList) : Visible s := by
  obtain ⟨c, hmem, hblank⟩ := h.exists_not_blank
  exact .mk hmem hblank

theorem scalar_eq_ok_iff {s : String} :
    (scalar data key : Except (Failure α) String) = .ok s ↔ data.lookup key = some (.text s) ∧ Visible s := by
  unfold scalar
  cases data.lookup key with
  | none => simp
  | some value =>
    cases value with
    | text found =>
      show (if _ then _ else _) = _ ↔ _
      split_ifs with hempty
      · have hblank := trim_isEmpty_iff.mp hempty
        refine iff_of_false (fun h => nomatch h) ?_
        rintro ⟨hsame, hvisible⟩
        obtain rfl := Value.text.inj (Option.some.inj hsame)
        exact hblank hvisible
      · have hvisible := Classical.not_not.mp (mt trim_isEmpty_iff.mpr hempty)
        constructor
        · intro h
          obtain rfl := Except.ok.inj h
          exact ⟨rfl, hvisible⟩
        · rintro ⟨hsame, -⟩
          rw [Value.text.inj (Option.some.inj hsame)]
    | _ => simp

theorem scalar_of_not_visible (h : ∀ s, data.lookup key = some (.text s) → ¬ Visible s) :
    (scalar data key : Except (Failure α) String) =
      .error (.showing ((data.lookup key).getD .absent) (.invalidEntry key none)) := by
  unfold scalar
  cases hfound : data.lookup key with
  | none => rfl
  | some value =>
    cases value with
    | text s => exact if_pos (trim_isEmpty_iff.mpr (h s hfound))
    | _ => rfl

theorem themeName_eq_ok_iff {s : String} : (themeName data : Except (Failure α) String) = .ok s ↔
    data.lookup "name" = some (.text s) ∧ Expression.Name s.toList := by
  unfold themeName
  simp only [bind_eq_ok, scalar_eq_ok_iff]
  constructor
  · rintro ⟨found, ⟨hfound, -⟩, h⟩
    split_ifs at h with hname
    obtain rfl := pure_eq_ok.mp h
    exact ⟨hfound, Expression.isName_iff.mp hname⟩
  · rintro ⟨hfound, hname⟩
    exact ⟨s, ⟨hfound, visible_of_name hname⟩, by rw [if_pos (Expression.isName_iff.mpr hname)]; rfl⟩

theorem themeName_of_not_name (h : ∀ s, data.lookup "name" = some (.text s) → ¬ Expression.Name s.toList) :
    (themeName data : Except (Failure α) String) =
      .error (.showing ((data.lookup "name").getD .absent) (.invalidEntry "name" none)) := by
  by_cases hvisible : ∃ s, data.lookup "name" = some (.text s) ∧ Visible s
  · obtain ⟨s, hfound, hs⟩ := hvisible
    have hname : ¬ Expression.isName s.toList = true := fun hname => h s hfound (Expression.isName_iff.mp hname)
    rw [themeName, bind_of_ok (scalar_eq_ok_iff.mpr ⟨hfound, hs⟩), if_neg hname, hfound]
    rfl
  · exact bind_of_error (scalar_of_not_visible fun s hfound hs => hvisible ⟨s, hfound, hs⟩) _

theorem requiredSection_eq_ok_iff {texts : List (String × String)} :
    (requiredSection data key : Except (Failure α) (List (String × String))) = .ok texts ↔
      data.lookup key = some (textTable texts) := by
  rw [requiredSection, textSection_eq_ok_iff]
  cases data.lookup key <;> simp [textTable]

theorem optionalSection_eq_ok_iff {texts : List (String × String)} :
    (optionalSection data key : Except (Failure α) (List (String × String))) = .ok texts ↔
      (data.lookup key).getD (.table []) = textTable texts := by
  unfold optionalSection
  cases data.lookup key with
  | none => cases texts <;> simp [textTable]
  | some value => exact textSection_eq_ok_iff

theorem ofData_eq_ok_iff {d : ThemeDocument} :
    (ofData data : Except (Failure α) ThemeDocument) = .ok d ↔ Holds data d := by
  unfold ofData
  simp only [bind_eq_ok, pure_eq_ok, hueSection_eq_ok_iff, themeName_eq_ok_iff, scalar_eq_ok_iff,
    requiredSection_eq_ok_iff, optionalSection_eq_ok_iff]
  constructor
  · rintro ⟨hues, hhues, name, ⟨hname, hisName⟩, background, ⟨hbackground, hvisible⟩, colors, hcolors,
      highlights, hhighlights, globals, hglobals, rfl⟩
    exact ⟨hhues, hname, hisName, hbackground, hvisible, hcolors, hhighlights, hglobals⟩
  · rintro ⟨hhues, hname, hisName, hbackground, hvisible, hcolors, hhighlights, hglobals⟩
    exact ⟨_, hhues, _, ⟨hname, hisName⟩, _, ⟨hbackground, hvisible⟩, _, hcolors, _, hhighlights, _, hglobals, rfl⟩

end Readers

section Checks

def check (α : Type) (data : List (String × Value)) : Field → Except (Failure α) Unit
  | .hues => hueSection data >>= fun _ => .ok ()
  | .name => themeName data >>= fun _ => .ok ()
  | .background => scalar data "background" >>= fun _ => .ok ()
  | .colors => requiredSection data "colors" >>= fun _ => .ok ()
  | .highlights => optionalSection data "highlights" >>= fun _ => .ok ()
  | .globals => optionalSection data "globals" >>= fun _ => .ok ()

theorem ofData_eq_error_iff_forM {failure : Failure α} :
    ofData data = .error failure ↔ forM Field.all (check α data) = .error failure := by
  have hforget : (ofData data >>= fun _ => .ok ()) = forM Field.all (check α data) := by
    simp only [ofData, Field.all, check, List.forM_cons, List.forM_nil, bind_assoc, pure_bind]
    rfl
  rw [← hforget, bind_eq_error]
  simp

theorem check_texts_iff {read : Except (Failure α) (List (String × String))} {value : Value}
    (hread : ∀ texts, read = .ok texts ↔ value = textTable texts) :
    (read >>= fun _ => .ok ()) = .ok () ↔ ∃ entries, value = .table entries ∧ ∀ entry ∈ entries, IsText entry.2 := by
  simp only [bind_eq_ok, hread, and_true]
  constructor
  · rintro ⟨texts, rfl⟩
    exact ⟨_, rfl, exists_textTable_iff.mp ⟨texts, rfl⟩⟩
  · rintro ⟨entries, rfl, hall⟩
    exact exists_textTable_iff.mpr hall

theorem check_optional_iff {field : Field} (hoptional : field.Optional) (htexts : field.HoldsTexts) :
    (optionalSection (α := α) data field.key >>= fun _ => .ok ()) = .ok () ↔ field.Sound data := by
  rw [check_texts_iff fun _ => optionalSection_eq_ok_iff, Field.Sound]
  cases data.lookup field.key with
  | none => exact iff_of_true ⟨[], rfl, fun _ h => absurd h List.not_mem_nil⟩ hoptional
  | some value => cases htexts <;> rfl

theorem check_eq_ok_iff {field : Field} : check α data field = .ok () ↔ field.Sound data := by
  cases field with
  | hues =>
    simp only [check, bind_eq_ok, hueSection_eq_ok_iff, and_true, Field.Sound, Field.key]
    cases data.lookup "hues" with
    | none => exact iff_of_true ⟨[], rfl⟩ .hues
    | some value => rfl
  | name =>
    simp only [check, bind_eq_ok, themeName_eq_ok_iff, and_true, Field.Sound, Field.key]
    cases data.lookup "name" with
    | none => exact iff_of_false (fun ⟨_, h, _⟩ => nomatch h) fun h => nomatch h
    | some value => simp only [Option.some.injEq, Field.Admits]
  | background =>
    simp only [check, bind_eq_ok, scalar_eq_ok_iff, and_true, Field.Sound, Field.key]
    cases data.lookup "background" with
    | none => exact iff_of_false (fun ⟨_, h, _⟩ => nomatch h) fun h => nomatch h
    | some value => simp only [Option.some.injEq, Field.Admits]
  | colors =>
    rw [check, requiredSection, check_texts_iff fun _ => textSection_eq_ok_iff, Field.Sound, Field.key]
    cases data.lookup "colors" with
    | none => exact iff_of_false (fun ⟨_, h, _⟩ => nomatch h) fun h => nomatch h
    | some value => rfl
  | highlights => exact check_optional_iff .highlights .highlights
  | globals => exact check_optional_iff .globals .globals

theorem textSection_of_blames {field : Field} {value : Value} (htexts : field.HoldsTexts)
    (hfound : data.lookup field.key = some value) {name : Option String} {blamed : Value}
    (hblames : field.Blames data name blamed) :
    textSection field.key value = (.error (.showing blamed (.invalidEntry field.key name)) : Except (Failure α) _) := by
  cases hblames with
  | entry _ htable hfirst =>
    obtain rfl := Option.some.inj (hfound.symm.trans htable)
    exact textSection_of_firstFailing hfirst
  | whole hwhole =>
    rw [hfound]
    refine textSection_of_not_table fun entries heq => ?_
    exact hwhole htexts entries (by rw [hfound, heq])

theorem blames_eq_whole {field : Field} {name : Option String} {blamed : Value} (hblames : field.Blames data name blamed)
    (h : ¬ field.HoldsTexts ∨ data.lookup field.key = none) :
    name = none ∧ blamed = (data.lookup field.key).getD .absent := by
  cases hblames with
  | entry htexts hfound _ =>
    rcases h with hnot | hnone
    · exact absurd htexts hnot
    · rw [hnone] at hfound
      cases hfound
  | whole _ => exact ⟨rfl, rfl⟩

theorem check_optional_of_blames {field : Field} (hoptional : field.Optional) (htexts : field.HoldsTexts)
    (hnot : ¬ field.Sound data) {name : Option String} {blamed : Value} (hblames : field.Blames data name blamed) :
    (optionalSection (α := α) data field.key >>= fun _ => .ok ()) = .error (.showing blamed (.invalidEntry field.key name)) := by
  cases hfound : data.lookup field.key with
  | none => exact absurd (by rw [Field.Sound, hfound]; exact hoptional) hnot
  | some value =>
    rw [optionalSection, hfound]
    exact bind_of_error (textSection_of_blames htexts hfound hblames) _

theorem check_of_blames {field : Field} (hnot : ¬ field.Sound data) {name : Option String} {blamed : Value}
    (hblames : field.Blames data name blamed) :
    check α data field = .error (.showing blamed (.invalidEntry field.key name)) := by
  cases field with
  | hues =>
    obtain ⟨rfl, rfl⟩ := blames_eq_whole hblames (.inl fun h => nomatch h)
    cases hfound : data.lookup Field.hues.key with
    | none => exact absurd (by rw [Field.Sound, hfound]; exact .hues) hnot
    | some value =>
      refine bind_of_error (hueSection_of_not_table hfound fun entries heq => hnot ?_) _
      rw [Field.Sound, hfound]
      exact ⟨entries, heq⟩
  | name =>
    obtain ⟨rfl, rfl⟩ := blames_eq_whole hblames (.inl fun h => nomatch h)
    refine bind_of_error (themeName_of_not_name fun s hfound hname => hnot ?_) _
    rw [Field.Sound, Field.key, hfound]
    exact ⟨s, rfl, hname⟩
  | background =>
    obtain ⟨rfl, rfl⟩ := blames_eq_whole hblames (.inl fun h => nomatch h)
    refine bind_of_error (scalar_of_not_visible fun s hfound hvisible => hnot ?_) _
    rw [Field.Sound, Field.key, hfound]
    exact ⟨s, rfl, hvisible⟩
  | colors =>
    cases hfound : data.lookup Field.colors.key with
    | none =>
      obtain ⟨rfl, rfl⟩ := blames_eq_whole hblames (.inr hfound)
      have hmissing : data.lookup "colors" = none := hfound
      exact bind_of_error (textSection_of_not_table fun entries => by rw [hmissing]; simp) _
    | some value =>
      rw [check, requiredSection, show data.lookup "colors" = some value from hfound]
      exact bind_of_error (textSection_of_blames .colors hfound hblames) _
  | highlights => exact check_optional_of_blames .highlights .highlights hnot hblames
  | globals => exact check_optional_of_blames .globals .globals hnot hblames

theorem exists_blames {field : Field} (hnot : ¬ field.Sound data) : ∃ name value, field.Blames data name value := by
  by_cases htable : field.HoldsTexts ∧ ∃ entries, data.lookup field.key = some (.table entries)
  · obtain ⟨htexts, entries, hfound⟩ := htable
    have hsome : ¬ ∀ entry ∈ entries, IsText entry.2 := by
      intro hall
      apply hnot
      rw [Field.Sound, hfound]
      cases htexts <;> exact ⟨entries, rfl, hall⟩
    obtain ⟨⟨name, value⟩, hfirst⟩ := exists_firstFailing hsome
    exact ⟨some name, value, .entry htexts hfound hfirst⟩
  · exact ⟨none, _, .whole fun htexts entries hfound => htable ⟨htexts, entries, hfound⟩⟩

theorem check_eq_error_iff {field : Field} {failure : Failure α} (hnot : ¬ field.Sound data) :
    check α data field = .error failure ↔
      ∃ name value, field.Blames data name value ∧ Failure.Shows (.invalidEntry field.key name) value failure := by
  constructor
  · intro h
    obtain ⟨name, value, hblames⟩ := exists_blames hnot
    have herror := h.symm.trans (check_of_blames hnot hblames)
    exact ⟨name, value, hblames, Failure.shows_iff.mpr (Except.error.inj herror)⟩
  · rintro ⟨name, value, hblames, hshows⟩
    rw [check_of_blames hnot hblames, hshows.showing_eq]

theorem ofData_eq_error_iff {failure : Failure α} : ofData data = .error failure ↔ ∃ field name value,
    FirstFailing (Field.Sound data) Field.all field ∧ field.Blames data name value ∧
      Failure.Shows (.invalidEntry field.key name) value failure := by
  have hsound : (fun field => check α data field = .ok ()) = Field.Sound data := funext fun _ => propext check_eq_ok_iff
  rw [ofData_eq_error_iff_forM, forM_eq_error_iff, hsound]
  refine exists_congr fun field => ?_
  constructor
  · rintro ⟨hfirst, herror⟩
    obtain ⟨-, -, -, -, hnot⟩ := id hfirst
    obtain ⟨name, value, hblames, he⟩ := (check_eq_error_iff hnot).mp herror
    exact ⟨name, value, hfirst, hblames, he⟩
  · rintro ⟨name, value, hfirst, hblames, he⟩
    obtain ⟨-, -, -, -, hnot⟩ := id hfirst
    exact ⟨hfirst, (check_eq_error_iff hnot).mpr ⟨name, value, hblames, he⟩⟩

theorem mem_all (field : Field) : field ∈ Field.all := by cases field <;> decide

theorem exists_ofData_iff :
    (∃ d, (ofData data : Except (Failure α) ThemeDocument) = .ok d) ↔ ∀ field : Field, field.Sound data := by
  rw [← forall_not_error_iff]
  simp only [ofData_eq_error_iff_forM, forall_not_error_iff]
  constructor
  · rintro ⟨⟨⟩, h⟩ field
    exact check_eq_ok_iff.mp (forM_eq_ok_iff.mp h field (mem_all field))
  · intro h
    exact ⟨(), forM_eq_ok_iff.mpr fun field _ => check_eq_ok_iff.mpr (h field)⟩

theorem ofData_congr {other : List (String × Value)}
    (h : ∀ field : Field, data.lookup field.key = other.lookup field.key) :
    (ofData data : Except (Failure α) ThemeDocument) = ofData other := by
  have hhues : data.lookup "hues" = other.lookup "hues" := h .hues
  have hname : data.lookup "name" = other.lookup "name" := h .name
  have hbackground : data.lookup "background" = other.lookup "background" := h .background
  have hcolors : data.lookup "colors" = other.lookup "colors" := h .colors
  have hhighlights : data.lookup "highlights" = other.lookup "highlights" := h .highlights
  have hglobals : data.lookup "globals" = other.lookup "globals" := h .globals
  simp only [ofData, hueSection, themeName, scalar, requiredSection, optionalSection, hhues, hname, hbackground, hcolors,
    hhighlights, hglobals]

end Checks

/-- A table of values is a document exactly if each of its fields is in order, and the document holds what stands there.
Otherwise the first field that is not in order is blamed. Nothing but the fields has a part in it. -/
theorem ofData_validates (data : List (String × Value)) :
    (∀ d, (ofData data : Except (Failure α) ThemeDocument) = .ok d ↔ Holds data d) ∧
    ((∃ d, (ofData data : Except (Failure α) ThemeDocument) = .ok d) ↔ ∀ field : Field, field.Sound data) ∧
    (∀ failure : Failure α, ofData data = .error failure ↔ ∃ field name value,
      FirstFailing (Field.Sound data) Field.all field ∧ field.Blames data name value ∧
        Failure.Shows (.invalidEntry field.key name) value failure) ∧
    ∀ other : List (String × Value), (∀ field : Field, data.lookup field.key = other.lookup field.key) →
      (ofData data : Except (Failure α) ThemeDocument) = ofData other :=
  ⟨fun _ => ofData_eq_ok_iff, exists_ofData_iff, fun _ => ofData_eq_error_iff, fun _ h => ofData_congr h⟩

section Witness

/-- The colors come before the highlights whatever stands first, and of the colors the first that is no text counts. -/
private def tangled : List (String × Value) :=
  [("highlights", .int 1), ("colors", .table [("a", .text "#336699"), ("b", .bool true), ("c", .int 3)]),
    ("background", .text " dark "), ("name", .text "dusk")]

private def signed : List (String × Value) := ("author", .int 2) :: tangled.reverse

private theorem firstFailing_tangled : FirstFailing (Field.Sound tangled) Field.all .colors := by
  refine ⟨[.hues, .name, .background], [.highlights, .globals], rfl, ?_, ?_⟩
  · intro field hfield
    simp only [List.mem_cons, List.not_mem_nil, or_false] at hfield
    rcases hfield with rfl | rfl | rfl
    · exact Field.Optional.hues
    · exact ⟨"dusk", rfl, Expression.isName_iff.mp (by decide)⟩
    · exact ⟨" dark ", rfl, .mk (c := 'd') (by decide) (by decide)⟩
  · rintro ⟨entries, hentries, hall⟩
    obtain rfl := Value.table.inj hentries
    cases hall ("b", .bool true) (by simp)

theorem ofData_validates_tangled :
    (ofData tangled : Except (Failure Float) ThemeDocument) =
      .error (.theme (.invalidEntry "colors" (some "b") ⟨.bool true, "True", rfl⟩)) ∧
      (∀ field : Field, tangled.lookup field.key = signed.lookup field.key) ∧
      (ofData tangled : Except (Failure Float) ThemeDocument) = ofData signed := by
  obtain ⟨-, -, hfault, hsame⟩ := ofData_validates (α := Float) tangled
  have hfirst : FirstFailing (fun entry : String × Value => IsText entry.2)
      [("a", .text "#336699"), ("b", .bool true), ("c", .int 3)] ("b", .bool true) := by
    refine ⟨[("a", .text "#336699")], [("c", .int 3)], rfl, ?_, fun h => nomatch h⟩
    intro entry hentry
    obtain rfl := List.mem_singleton.mp hentry
    exact .mk "#336699"
  have hlookup : ∀ field : Field, tangled.lookup field.key = signed.lookup field.key := by
    intro field
    cases field <;> rfl
  refine ⟨(hfault _).mpr ⟨.colors, some "b", .bool true, firstFailing_tangled, .entry .colors rfl hfirst, ?_⟩, hlookup,
    hsame signed hlookup⟩
  exact .fault ⟨.bool true, "True", rfl⟩

end Witness

section LongInteger

def named (value : Value) : List (String × Value) :=
  [("name", value), ("background", .text "dark"), ("colors", .table [("a", .text "#336699")])]

theorem ten_pow_lt_sixteen_pow {m : Nat} (h : m ≠ 0) (rest : Nat) : 10 ^ (43 * m) < 16 ^ (40 * m + rest) := by
  rw [Nat.pow_add, Nat.pow_mul, Nat.pow_mul]
  exact Nat.lt_of_lt_of_le (Nat.pow_lt_pow_left (by decide) h) (Nat.le_mul_of_pos_right _ (Nat.pow_pos (by decide)))

/-- Four thousand hexadecimal digits are more than an integer may have decimal ones. -/
theorem pow_digitLimit_lt {k : Nat} (h : 40 * 100 ≤ k) : 10 ^ Value.digitLimit < 16 ^ k := by
  have hlimit : Value.digitLimit = 43 * 100 := rfl
  obtain ⟨rest, rfl⟩ := Nat.exists_eq_add_of_le h
  rw [hlimit]
  exact ten_pow_lt_sixteen_pow (m := 100) (by decide) rest

theorem ofData_named_pow {k : Nat} (h : 40 * 100 ≤ k) :
    (ofData (named (.int (16 ^ k - 1 : Nat))) : Except (Failure α) ThemeDocument) = .error .integerTooLong := by
  have hname : (ofData (named (.int (16 ^ k - 1 : Nat))) : Except (Failure α) ThemeDocument) =
      .error (.showing (.int (16 ^ k - 1 : Nat)) (.invalidEntry "name" none)) := rfl
  rw [hname, Failure.showing_of_not_writable]
  rw [Value.writable_int_iff]
  exact Nat.not_lt.mpr (Nat.le_sub_one_of_lt (pow_digitLimit_lt h))

theorem ofData_named_is_not_blamed :
    ¬ ∃ (key : String) (name : Option String) (shown : Described),
      (ofData (named (.int (16 ^ 4000 - 1 : Nat))) : Except (Failure Float) ThemeDocument) =
        .error (.theme (.invalidEntry key name shown)) := by
  rintro ⟨key, name, shown, h⟩
  rw [ofData_named_pow (k := 4000) (by decide)] at h
  cases h

end LongInteger

end ThemeDocument

end EditorTheme
