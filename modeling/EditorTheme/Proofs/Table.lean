import EditorTheme.Table
import Mathlib.Data.List.Basic

/-!
Tables as wholes: the names in their order and the value of each name make up a table. Entries can be selected in
another order, and their values rewritten name by name.
-/

set_option autoImplicit false
set_option relaxedAutoImplicit false

namespace EditorTheme.Table

variable {β : Type}

theorem select_self (t : Table β) : t.select t.names t.distinct = t := by
  apply Table.ext
  show (t.entries.map Prod.fst).filterMap _ = t.entries
  rw [List.filterMap_map]
  have hentry : ∀ entry ∈ t.entries, (t.find? entry.1).map (fun v => (entry.1, v)) = some entry := by
    intro entry hentry
    rw [(t.mem_entries_iff entry.1 entry.2).mp hentry]
    rfl
  exact (List.filterMap_congr hentry).trans List.filterMap_some

theorem eq_of_find? {t u : Table β} (hnames : t.names = u.names)
    (hvalues : ∀ name ∈ t.names, t.find? name = u.find? name) : t = u := by
  have hsame : (t.select t.names t.distinct).entries = (u.select u.names u.distinct).entries := by
    show t.names.filterMap _ = u.names.filterMap _
    rw [← hnames]
    exact List.filterMap_congr fun name hname => by rw [hvalues name hname]
  rw [select_self, select_self] at hsame
  exact Table.ext hsame

theorem perm_entries_select {t : Table β} {names : List String} (hdistinct : names.Nodup) (h : names.Perm t.names) :
    (t.select names hdistinct).entries.Perm t.entries := by
  have hself : (t.select t.names t.distinct).entries = t.entries := by rw [select_self]
  rw [← hself]
  exact h.filterMap _

theorem select_insert (t : Table β) {names : List String} {name : String} (hnew : name ∉ names)
    (value : β) (hdistinct : names.Nodup) (hlonger : (names ++ [name]).Nodup) :
    (t.insert name value).select (names ++ [name]) hlonger = (t.select names hdistinct).insert name value := by
  have hkept : (names.filterMap fun n => ((t.insert name value).find? n).map fun v => (n, v)) =
      names.filterMap fun n => (t.find? n).map fun v => (n, v) := by
    refine List.filterMap_congr fun n hn => ?_
    have hne : n ≠ name := fun heq => hnew (heq ▸ hn)
    rw [t.find?_insert_of_ne hne value]
  have hlast : name ∉ (t.select names hdistinct).names := fun hmem =>
    hnew ((Table.map_fst_filterMap_sublist t.find? names).subset hmem)
  apply Table.ext
  rw [Table.entries_insert_of_not_mem hlast]
  show (names ++ [name]).filterMap _ = _
  rw [List.filterMap_append, hkept]
  simp [Table.select]

section Extension

def extended (t : Table β) (entries : List (String × β)) : Table β :=
  entries.foldl (fun t entry => t.insert entry.1 entry.2) t

theorem find?_extended {entries : List (String × β)} {name : String} (h : ∀ entry ∈ entries, entry.1 ≠ name)
    (t : Table β) : (t.extended entries).find? name = t.find? name := by
  induction entries generalizing t with
  | nil => rfl
  | cons entry rest ih =>
    obtain ⟨hentry, hrest⟩ := List.forall_mem_cons.mp h
    rw [← t.find?_insert_of_ne hentry.symm entry.2]
    exact ih hrest (t.insert entry.1 entry.2)

end Extension

section Rewriting

variable {γ : Type}

/-- The same names with other values, each made from the name and its old value. -/
def rewritten (t : Table β) (f : String → β → γ) : Table γ :=
  ⟨t.entries.map fun entry => (entry.1, f entry.1 entry.2), by
    rw [List.map_map]
    exact t.distinct⟩

@[simp] theorem names_rewritten (t : Table β) (f : String → β → γ) : (t.rewritten f).names = t.names :=
  List.map_map

@[simp] theorem find?_rewritten (t : Table β) (f : String → β → γ) (name : String) :
    (t.rewritten f).find? name = (t.find? name).map (f name) := by
  apply Option.ext
  intro value
  rw [← mem_entries_iff, Option.map_eq_some_iff]
  constructor
  · intro h
    obtain ⟨entry, hentry, heq⟩ := List.mem_map.mp h
    obtain ⟨rfl, rfl⟩ := Prod.mk.inj heq
    exact ⟨entry.2, (t.mem_entries_iff entry.1 entry.2).mp hentry, rfl⟩
  · rintro ⟨old, hold, rfl⟩
    exact List.mem_map.mpr ⟨(name, old), (t.mem_entries_iff name old).mpr hold, rfl⟩

end Rewriting

end EditorTheme.Table
