/-!
Ordered tables: names with values, in the order in which the names first arrived. No name stands twice, and
writing to a name that is present keeps its place. The lemmas say what each operation does to the names and to
the value of a name; an entry stands in a table exactly when its name has its value.
-/

set_option autoImplicit false
set_option relaxedAutoImplicit false

namespace EditorTheme

section Entries

variable {κ β : Type} [BEq κ]

/-- Replaces the value of a key, or adds the key at the end. -/
def insertEntry (key : κ) (value : β) : List (κ × β) → List (κ × β)
  | [] => [(key, value)]
  | entry :: rest =>
    if entry.1 == key then (key, value) :: rest else entry :: insertEntry key value rest

theorem lookup_map_snd {γ : Type} (f : β → γ) (key : κ) (entries : List (κ × β)) :
    (entries.map fun entry => (entry.1, f entry.2)).lookup key = (entries.lookup key).map f := by
  induction entries with
  | nil => rfl
  | cons entry rest ih =>
    rw [List.map_cons, List.lookup_cons, List.lookup_cons, ih]
    cases key == entry.1 <;> rfl

variable [LawfulBEq κ]

theorem map_fst_insertEntry (key : κ) (value : β) (entries : List (κ × β)) :
    (insertEntry key value entries).map Prod.fst =
      if key ∈ entries.map Prod.fst then entries.map Prod.fst else entries.map Prod.fst ++ [key] := by
  induction entries with
  | nil => simp [insertEntry]
  | cons entry rest ih =>
    by_cases h : entry.1 = key
    · simp [insertEntry, h]
    · have hb : ¬ (entry.1 == key) = true := by simpa using h
      have h' : ¬ key = entry.1 := fun e => h e.symm
      rw [insertEntry, if_neg hb, List.map_cons, List.map_cons, ih]
      by_cases hm : key ∈ rest.map Prod.fst
      · rw [if_pos hm, if_pos (List.mem_cons_of_mem _ hm)]
      · have hm' : ¬ key ∈ entry.1 :: rest.map Prod.fst := by
          rw [List.mem_cons, not_or]
          exact ⟨h', hm⟩
        rw [if_neg hm, if_neg hm', List.cons_append]

theorem insertEntry_of_not_mem {key : κ} (value : β) {entries : List (κ × β)}
    (h : key ∉ entries.map Prod.fst) : insertEntry key value entries = entries ++ [(key, value)] := by
  induction entries with
  | nil => rfl
  | cons entry rest ih =>
    rw [List.map_cons, List.mem_cons, not_or] at h
    have hb : ¬ (entry.1 == key) = true := by simpa using Ne.symm h.1
    rw [insertEntry, if_neg hb, ih h.2, List.cons_append]

theorem nodup_insertEntry (key : κ) (value : β) {entries : List (κ × β)}
    (h : (entries.map Prod.fst).Nodup) : ((insertEntry key value entries).map Prod.fst).Nodup := by
  rw [map_fst_insertEntry]
  split
  · exact h
  · rename_i hm
    rw [List.nodup_append]
    refine ⟨h, by simp, ?_⟩
    intro a ha b hb e
    rw [List.mem_singleton] at hb
    rw [e, hb] at ha
    exact hm ha

@[simp] theorem lookup_insertEntry_self (key : κ) (value : β) (entries : List (κ × β)) :
    (insertEntry key value entries).lookup key = some value := by
  induction entries with
  | nil => simp [insertEntry]
  | cons entry rest ih =>
    rcases entry with ⟨first, found⟩
    by_cases h : first = key
    · simp [insertEntry, h]
    · have hb : ¬ (first == key) = true := by simpa using h
      have hb' : (key == first) = false := by simpa using Ne.symm h
      rw [insertEntry, if_neg hb, List.lookup_cons, hb']
      exact ih

theorem lookup_insertEntry_of_ne {key other : κ} (hne : other ≠ key) (value : β)
    (entries : List (κ × β)) :
    (insertEntry key value entries).lookup other = entries.lookup other := by
  have hb : (other == key) = false := by simp [hne]
  induction entries with
  | nil => simp [insertEntry, List.lookup_cons, hb]
  | cons entry rest ih =>
    rcases entry with ⟨first, found⟩
    by_cases h : first = key
    · simp [insertEntry, List.lookup_cons, h, hb]
    · have hn : ¬ (first == key) = true := by simpa using h
      rw [insertEntry, if_neg hn, List.lookup_cons, List.lookup_cons, ih]

theorem lookup_eq_some_iff_mem {entries : List (κ × β)} (h : (entries.map Prod.fst).Nodup)
    (key : κ) (value : β) : entries.lookup key = some value ↔ (key, value) ∈ entries := by
  induction entries with
  | nil => simp
  | cons entry rest ih =>
    rcases entry with ⟨first, found⟩
    rw [List.map_cons, List.nodup_cons] at h
    by_cases hk : key = first
    · subst hk
      have hnot : (key, value) ∉ rest := fun hm => h.1 (List.mem_map.mpr ⟨(key, value), hm, rfl⟩)
      simp [hnot, eq_comm]
    · have hb : (key == first) = false := by simp [hk]
      simp [List.lookup_cons, hb, hk, ih h.2]

end Entries

/-- A list of named values without repeated names. -/
@[ext]
structure Table (β : Type) where
  entries : List (String × β)
  distinct : (entries.map Prod.fst).Nodup

namespace Table

variable {β : Type}

def empty : Table β := ⟨[], List.nodup_nil⟩

instance : Inhabited (Table β) := ⟨empty⟩

def insert (t : Table β) (name : String) (value : β) : Table β :=
  ⟨insertEntry name value t.entries, nodup_insertEntry name value t.distinct⟩

/-- The table of a list of pairs: a repeated name keeps its first place and takes the last value. -/
def ofList (pairs : List (String × β)) : Table β :=
  pairs.foldl (fun t pair => t.insert pair.1 pair.2) empty

def names (t : Table β) : List String := t.entries.map Prod.fst

def find? (t : Table β) (name : String) : Option β := t.entries.lookup name

def contains (t : Table β) (name : String) : Bool := (t.find? name).isSome

def size (t : Table β) : Nat := t.entries.length

@[simp] theorem find?_empty (name : String) : (empty : Table β).find? name = none := rfl

@[simp] theorem names_empty : (empty : Table β).names = [] := rfl

@[simp] theorem find?_insert_self (t : Table β) (name : String) (value : β) :
    (t.insert name value).find? name = some value := lookup_insertEntry_self name value t.entries

theorem find?_insert_of_ne (t : Table β) {name other : String} (h : other ≠ name) (value : β) :
    (t.insert name value).find? other = t.find? other := lookup_insertEntry_of_ne h value t.entries

theorem names_insert (t : Table β) (name : String) (value : β) :
    (t.insert name value).names = if name ∈ t.names then t.names else t.names ++ [name] :=
  map_fst_insertEntry name value t.entries

theorem entries_insert_of_not_mem {t : Table β} {name : String} (h : name ∉ t.names) (value : β) :
    (t.insert name value).entries = t.entries ++ [(name, value)] := insertEntry_of_not_mem value h

theorem entries_foldl_insert {pairs : List (String × β)} {t : Table β} (h : (t.names ++ pairs.map Prod.fst).Nodup) :
    (pairs.foldl (fun t pair => t.insert pair.1 pair.2) t).entries = t.entries ++ pairs := by
  induction pairs generalizing t with
  | nil => exact (List.append_nil _).symm
  | cons pair rest ih =>
    have hnew : pair.1 ∉ t.names := fun hmem =>
      (List.nodup_append.mp h).2.2 pair.1 hmem pair.1 List.mem_cons_self rfl
    have hentries : (t.insert pair.1 pair.2).entries = t.entries ++ [pair] := entries_insert_of_not_mem hnew pair.2
    have hnames : (t.insert pair.1 pair.2).names = t.names ++ [pair.1] := by
      rw [names_insert, if_neg hnew]
    rw [List.foldl_cons, ih, hentries, List.append_assoc, List.singleton_append]
    rwa [hnames, List.append_assoc, List.singleton_append]

theorem entries_ofList {pairs : List (String × β)} (h : (pairs.map Prod.fst).Nodup) :
    (ofList pairs).entries = pairs := entries_foldl_insert h

theorem names_foldl_insert {pairs : List (String × β)} (h : (pairs.map Prod.fst).Nodup) (t : Table β) :
    (pairs.foldl (fun t pair => t.insert pair.1 pair.2) t).names =
      t.names ++ (pairs.map Prod.fst).filter (· ∉ t.names) := by
  induction pairs generalizing t with
  | nil => exact (List.append_nil _).symm
  | cons pair rest ih =>
    obtain ⟨hnot, hrest⟩ := List.nodup_cons.mp h
    rw [List.foldl_cons, ih hrest, names_insert, List.map_cons]
    by_cases hold : pair.1 ∈ t.names
    · rw [if_pos hold, List.filter_cons_of_neg (by simpa using hold)]
    · have hfilter : (rest.map Prod.fst).filter (· ∉ t.names ++ [pair.1]) = (rest.map Prod.fst).filter (· ∉ t.names) := by
        apply List.filter_congr
        intro name hname
        have hne : name ≠ pair.1 := fun heq => hnot (heq ▸ hname)
        simp [hne]
      rw [if_neg hold, hfilter, List.filter_cons_of_pos (by simpa using hold), List.append_assoc,
        List.singleton_append]

theorem ofList_append (pairs later : List (String × β)) :
    ofList (pairs ++ later) = later.foldl (fun t pair => t.insert pair.1 pair.2) (ofList pairs) := List.foldl_append

theorem mem_entries_iff (t : Table β) (name : String) (value : β) :
    (name, value) ∈ t.entries ↔ t.find? name = some value :=
  (lookup_eq_some_iff_mem t.distinct name value).symm

theorem mem_names_iff (t : Table β) (name : String) : name ∈ t.names ↔ ∃ value, t.find? name = some value := by
  constructor
  · intro h
    obtain ⟨entry, he, rfl⟩ := List.mem_map.mp h
    exact ⟨entry.2, (t.mem_entries_iff entry.1 entry.2).mp he⟩
  · rintro ⟨value, h⟩
    exact List.mem_map.mpr ⟨(name, value), (t.mem_entries_iff name value).mpr h, rfl⟩

theorem contains_iff_mem_names (t : Table β) (name : String) : t.contains name = true ↔ name ∈ t.names := by
  rw [contains, Option.isSome_iff_exists, mem_names_iff]

theorem exists_entries_of_names {t : Table β} {before after : List String} {name : String}
    (h : t.names = before ++ name :: after) :
    ∃ first value last, t.entries = first ++ (name, value) :: last ∧ first.map Prod.fst = before := by
  obtain ⟨first, rest, he, hfirst, hrest⟩ := List.map_eq_append_iff.mp h
  obtain ⟨entry, last, rfl, rfl, -⟩ := List.map_eq_cons_iff.mp hrest
  exact ⟨first, entry.2, last, he, hfirst⟩

theorem find?_eq_none {t : Table β} {name : String} (h : name ∉ t.names) : t.find? name = none := by
  cases hfound : t.find? name with
  | none => rfl
  | some value => exact absurd ((t.mem_names_iff name).mpr ⟨value, hfound⟩) h

theorem find?_eq_of_perm {t u : Table β} (h : t.entries.Perm u.entries) (name : String) :
    t.find? name = u.find? name := by
  apply Option.ext
  intro value
  rw [← mem_entries_iff, ← mem_entries_iff, h.mem_iff]

theorem map_fst_filterMap_sublist (get : String → Option β) (names : List String) :
    ((names.filterMap fun n => (get n).map fun v => (n, v)).map Prod.fst).Sublist names := by
  induction names with
  | nil => simp
  | cons n rest ih =>
    cases h : get n with
    | none => simpa [List.filterMap_cons, h] using List.Sublist.cons n ih
    | some v => simpa [List.filterMap_cons, h] using ih

def select (t : Table β) (names : List String) (distinct : names.Nodup) : Table β :=
  ⟨names.filterMap fun n => (t.find? n).map fun v => (n, v),
    (map_fst_filterMap_sublist t.find? names).nodup distinct⟩

theorem find?_select (t : Table β) {names : List String} (distinct : names.Nodup) {name : String}
    (h : name ∈ names) : (t.select names distinct).find? name = t.find? name := by
  apply Option.ext
  intro value
  rw [← mem_entries_iff]
  constructor
  · intro hm
    obtain ⟨n, _, hn⟩ := List.mem_filterMap.mp hm
    obtain ⟨v, hv, he⟩ := Option.map_eq_some_iff.mp hn
    obtain ⟨rfl, rfl⟩ := Prod.mk.inj he
    exact hv
  · intro hv
    exact List.mem_filterMap.mpr ⟨name, h, by simp [hv]⟩

theorem names_select (t : Table β) {names : List String} (distinct : names.Nodup)
    (h : ∀ name ∈ names, t.contains name = true) : (t.select names distinct).names = names := by
  show (names.filterMap fun n => (t.find? n).map fun v => (n, v)).map Prod.fst = names
  clear distinct
  induction names with
  | nil => rfl
  | cons n rest ih =>
    obtain ⟨v, hv⟩ := Option.isSome_iff_exists.mp (h n List.mem_cons_self)
    rw [List.filterMap_cons, hv]
    simp only [Option.map_some, List.map_cons]
    rw [ih fun m hm => h m (List.mem_cons_of_mem n hm)]

end Table

end EditorTheme
