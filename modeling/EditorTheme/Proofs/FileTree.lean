import EditorTheme.FileTree
import EditorTheme.Proofs.FilePath
import EditorTheme.Proofs.Sequencing

/-!
What the operations of a file tree need and what they do. Where a path leads is decided by its components and by the
place it starts from; the tree decides whether the path can be followed. Making folders changes no file, and writing a
file changes the contents of one place and no folder.
-/

set_option autoImplicit false
set_option relaxedAutoImplicit false

namespace EditorTheme

open FilePath (IsComponent components join)

theorem insertEntry_of_lookup {κ β : Type} [BEq κ] [LawfulBEq κ] {key : κ} {value : β} {entries : List (κ × β)}
    (h : entries.lookup key = some value) : insertEntry key value entries = entries := by
  induction entries with
  | nil => cases h
  | cons entry rest ih =>
    rcases entry with ⟨first, found⟩
    by_cases hkey : first = key
    · subst hkey
      obtain rfl : found = value := by simpa using h
      simp [insertEntry]
    · have hne : (key == first) = false := by simpa using Ne.symm hkey
      rw [List.lookup_cons, hne] at h
      rw [insertEntry, if_neg (by simpa using hkey), ih h]

namespace FileTree

variable {t t' : FileTree} {place : Place} {path name folder : String}

section Places

/-- The places that components lead to, one after the other. -/
def stops (place : Place) : List String → List Place
  | [] => []
  | component :: rest => next place component :: stops (next place component) rest

/-- Where a path leads, whatever is there. -/
def placeOf (t : FileTree) (path : String) : Place := (components path).foldl next (t.startOf path)

def folderOf (t : FileTree) (path : String) : Place := (components path).dropLast.foldl next (t.startOf path)

/-- The places that a path comes to after its start, one after the other. -/
def passed (t : FileTree) (path : String) : List Place := stops (t.startOf path) (components path)

theorem components_eq (path : String) :
    components path = (components path).dropLast ++ [(components path).getLastD ""] := by
  obtain ⟨before, last, h⟩ := FilePath.exists_components_eq path
  simp [h]

theorem placeOf_eq (t : FileTree) (path : String) :
    t.placeOf path = next (t.folderOf path) ((components path).getLastD "") := by
  rw [placeOf, components_eq path, List.foldl_append, List.foldl_cons, List.foldl_nil, ← components_eq path]
  rfl

theorem startOf_of_current (h : t'.current = t.current) (path : String) : t'.startOf path = t.startOf path := by
  rw [startOf, startOf, h]

theorem isFolder_startOf (h : t.isFolder t.current = true) (path : String) : t.isFolder (t.startOf path) = true := by
  unfold startOf
  split
  · rfl
  · exact h

theorem placeOf_of_current (h : t'.current = t.current) (path : String) : t'.placeOf path = t.placeOf path := by
  rw [placeOf, placeOf, startOf_of_current h]

theorem passed_of_current (h : t'.current = t.current) (path : String) : t'.passed path = t.passed path := by
  rw [passed, passed, startOf_of_current h]

theorem next_of_isComponent (h : IsComponent name) (place : Place) : next place name = place ++ [name] := by
  simp [next, stays, h.ne_empty, h.ne_point, h.ne_points]

theorem startOf_join (h : IsComponent name) (t : FileTree) (folder : String) :
    t.startOf (join folder name) = t.startOf folder := by
  rw [startOf, startOf, FilePath.isAbsolute_join h]

theorem placeOf_join (h : IsComponent name) (t : FileTree) (folder : String) :
    t.placeOf (join folder name) = t.placeOf folder ++ [name] := by
  obtain ⟨before, hjoin, hfolder⟩ := FilePath.components_join h folder
  have hplace : t.placeOf folder = before.foldl next (t.startOf folder) := by
    rw [placeOf]
    rcases hfolder with hsame | hend
    · rw [hsame]
    · -- The empty component at the end stays where it is.
      rw [hend, List.foldl_append]
      rfl
  rw [hplace, placeOf, startOf_join h, hjoin, List.foldl_append, ← next_of_isComponent h]
  rfl

end Places

section Walking

/-- The start of components and all places they lead through are folders. -/
def AllFolders (t : FileTree) (place : Place) (components : List String) : Prop :=
  ∀ stop ∈ place :: stops place components, t.isFolder stop = true

theorem allFolders_cons {component : String} {rest : List String} :
    t.AllFolders place (component :: rest) ↔ t.isFolder place = true ∧ t.AllFolders (next place component) rest :=
  List.forall_mem_cons

theorem walk_folder_iff {components : List String} {last : Place} :
    (t.walk place components = .ok last ∧ t.isFolder last = true) ↔
      t.AllFolders place components ∧ last = components.foldl next place := by
  induction components generalizing place with
  | nil =>
    constructor
    · rintro ⟨hwalk, hfolder⟩
      obtain rfl := Except.ok.inj hwalk
      exact ⟨fun stop hstop => List.mem_singleton.mp hstop ▸ hfolder, rfl⟩
    · rintro ⟨hall, rfl⟩
      exact ⟨rfl, hall _ List.mem_cons_self⟩
  | cons component rest ih =>
    rw [allFolders_cons, List.foldl_cons, and_assoc, ← ih, walk]
    by_cases hplace : t.isFolder place = true
    · rw [if_pos hplace]
      simp [hplace]
    · rw [if_neg hplace]
      constructor
      · rintro ⟨hwalk, -⟩
        split at hwalk <;> cases hwalk
      · exact fun h => absurd h.1 hplace

theorem walk_folderOf_iff {last : Place} :
    (t.walk (t.startOf path) (components path).dropLast = .ok last ∧ t.isFolder last = true) ↔
      t.AllFolders (t.startOf path) (components path).dropLast ∧ last = t.folderOf path := walk_folder_iff

theorem walk_append (before after : List String) :
    t.walk place (before ++ after) = (t.walk place before >>= fun middle => t.walk middle after) := by
  induction before generalizing place with
  | nil => rfl
  | cons component rest ih =>
    rw [List.cons_append, walk, walk]
    split
    · exact ih
    · split <;> rfl

theorem locate_eq_ok_iff {last : Place} :
    t.locate path = .ok last ↔
      t.AllFolders (t.startOf path) (components path).dropLast ∧ last = t.placeOf path := by
  rw [locate, components_eq path, walk_append, ← components_eq path, placeOf_eq, bind_eq_ok]
  constructor
  · rintro ⟨middle, hwalk, hlast⟩
    have hfolder : t.isFolder middle = true := by
      by_contra hnot
      rw [walk, if_neg hnot] at hlast
      split at hlast <;> cases hlast
    rw [walk, if_pos hfolder] at hlast
    obtain ⟨hall, rfl⟩ := walk_folderOf_iff.mp ⟨hwalk, hfolder⟩
    exact ⟨hall, (Except.ok.inj hlast).symm⟩
  · rintro ⟨hall, rfl⟩
    obtain ⟨hwalk, hfolder⟩ := walk_folderOf_iff.mpr ⟨hall, rfl⟩
    refine ⟨_, hwalk, ?_⟩
    rw [walk, if_pos hfolder]
    rfl

theorem read?_of_allFolders (h : t.AllFolders (t.startOf path) (components path).dropLast) :
    t.read? path = t.contents? (t.placeOf path) := by
  rw [read?, locate_eq_ok_iff.mpr ⟨h, rfl⟩]

theorem AllFolders.mono {components : List String} (h : t.AllFolders place components)
    (hfolders : ∀ place, t.isFolder place = true → t'.isFolder place = true) : t'.AllFolders place components :=
  fun stop hstop => hfolders stop (h stop hstop)

end Walking

section Writing

theorem checkPath_eq_ok_iff {u : Unit} : checkPath path = .ok u ↔ '\x00' ∉ path.toList := by
  unfold checkPath
  by_cases h : '\x00' ∈ path.toList <;> simp [h]

@[simp] theorem isFolder_put (t : FileTree) (place : Place) (contents : FileContents) (other : Place) :
    (t.put place contents).isFolder other = t.isFolder other := rfl

@[simp] theorem current_put (t : FileTree) (place : Place) (contents : FileContents) :
    (t.put place contents).current = t.current := rfl

@[simp] theorem contents?_put_self (t : FileTree) (place : Place) (contents : FileContents) :
    (t.put place contents).contents? place = some contents := lookup_insertEntry_self place contents t.files

theorem contents?_put_of_ne {other : Place} (h : other ≠ place) (contents : FileContents) :
    (t.put place contents).contents? other = t.contents? other := lookup_insertEntry_of_ne h contents t.files

theorem put_of_contents? {contents : FileContents} (h : t.contents? place = some contents) :
    t.put place contents = t := by
  have hfiles : insertEntry place contents t.files = t.files := insertEntry_of_lookup h
  rw [put, hfiles]

/-- What it takes to write the file of a path: its folder is there, and the last component names no folder. -/
structure Writable (t : FileTree) (path : String) : Prop where
  no_nul : '\x00' ∉ path.toList
  folders : t.AllFolders (t.startOf path) (components path).dropLast
  no_file : t.isFile (t.folderOf path) = false
  names_file : stays ((components path).getLastD "") = false ∧ (components path).getLastD "" ≠ ".."
  no_folder : t.isFolder (t.placeOf path) = false

theorem placeOf_of_names_file (hstays : stays ((components path).getLastD "") = false)
    (hparent : (components path).getLastD "" ≠ "..") :
    t.placeOf path = t.folderOf path ++ [(components path).getLastD ""] := by
  rw [placeOf_eq, next, if_neg (ne_true_of_eq_false hstays), if_neg hparent]

theorem write_eq_ok_iff {text : String} :
    t.write path text = .ok t' ↔ t.Writable path ∧ t' = t.put (t.placeOf path) (.text text) := by
  unfold write
  constructor
  · intro h
    obtain ⟨_, hcheck, h⟩ := bind_eq_ok.mp h
    obtain ⟨last, hwalk, h⟩ := bind_eq_ok.mp h
    dsimp only at h
    split at h
    · cases h
    rename_i hfile
    split at h
    · cases h
    rename_i hfolder
    split at h
    · cases h
    rename_i hname
    obtain ⟨hall, rfl⟩ := walk_folderOf_iff.mp ⟨hwalk, by simpa using hfolder⟩
    simp only [Bool.or_eq_true, decide_eq_true_eq, not_or, Bool.not_eq_true] at hname
    rw [and_assoc] at hname
    have hsame := placeOf_of_names_file (t := t) hname.1 hname.2.1
    refine ⟨⟨checkPath_eq_ok_iff.mp hcheck, hall, by simpa using hfile, ⟨hname.1, hname.2.1⟩, ?_⟩, ?_⟩
    · rw [hsame]
      exact hname.2.2
    · rw [hsame]
      exact (pure_eq_ok.mp h).symm
  · rintro ⟨h, rfl⟩
    have hsame := placeOf_of_names_file (t := t) h.names_file.1 h.names_file.2
    obtain ⟨hwalk, hfolder⟩ := walk_folderOf_iff.mpr ⟨h.folders, rfl⟩
    have hfree : (stays ((components path).getLastD "") || decide ((components path).getLastD "" = "..") ||
        t.isFolder (t.folderOf path ++ [(components path).getLastD ""])) = false := by
      rw [← hsame, h.no_folder, h.names_file.1, decide_eq_false h.names_file.2]
      rfl
    have hcheck : checkPath path = .ok () := checkPath_eq_ok_iff.mpr h.no_nul
    rw [bind_of_ok hcheck, bind_of_ok hwalk]
    dsimp only
    rw [if_neg (ne_true_of_eq_false h.no_file), if_neg (by simpa using hfolder),
      if_neg (ne_true_of_eq_false hfree), hsame]
    rfl

theorem write_of_writable {path : String} (h : t'.Writable path) (hcurrent : t'.current = t.current) (text : String) :
    t'.write path text = .ok (t'.put (t.placeOf path) (.text text)) :=
  write_eq_ok_iff.mpr ⟨h, by rw [placeOf_of_current hcurrent]⟩

end Writing

section Folders

def addFolders (t : FileTree) (places : List Place) : FileTree := places.foldl addFolder t

theorem addFolder_of_isFolder (h : t.isFolder place = true) : t.addFolder place = t := if_pos h

@[simp] theorem files_addFolder (t : FileTree) (place : Place) : (t.addFolder place).files = t.files := by
  unfold addFolder
  split <;> rfl

@[simp] theorem current_addFolder (t : FileTree) (place : Place) : (t.addFolder place).current = t.current := by
  unfold addFolder
  split <;> rfl

theorem isFolder_addFolder_iff {other : Place} :
    (t.addFolder place).isFolder other = true ↔ t.isFolder other = true ∨ other = place := by
  unfold addFolder
  split
  · rename_i hplace
    exact ⟨.inl, fun h => h.elim id fun heq => heq ▸ hplace⟩
  · simp [isFolder, or_assoc]

@[simp] theorem files_addFolders (t : FileTree) (places : List Place) : (t.addFolders places).files = t.files := by
  induction places generalizing t with
  | nil => rfl
  | cons place rest ih => exact (ih (t.addFolder place)).trans (files_addFolder t place)

@[simp] theorem current_addFolders (t : FileTree) (places : List Place) :
    (t.addFolders places).current = t.current := by
  induction places generalizing t with
  | nil => rfl
  | cons place rest ih => exact (ih (t.addFolder place)).trans (current_addFolder t place)

theorem contents?_addFolders (t : FileTree) (places : List Place) (place : Place) :
    (t.addFolders places).contents? place = t.contents? place := by
  rw [contents?, files_addFolders, contents?]

theorem isFile_addFolders (t : FileTree) (places : List Place) (place : Place) :
    (t.addFolders places).isFile place = t.isFile place := by
  rw [isFile, contents?_addFolders, isFile]

theorem isFolder_addFolders_iff {places : List Place} :
    (t.addFolders places).isFolder place = true ↔ t.isFolder place = true ∨ place ∈ places := by
  induction places generalizing t with
  | nil => simp [addFolders]
  | cons first rest ih =>
    have hstep : t.addFolders (first :: rest) = (t.addFolder first).addFolders rest := rfl
    rw [hstep, ih, isFolder_addFolder_iff, List.mem_cons, or_assoc]

theorem addFolders_of_isFolder {places : List Place} (h : ∀ place ∈ places, t.isFolder place = true) :
    t.addFolders places = t := by
  induction places with
  | nil => rfl
  | cons first rest ih =>
    obtain ⟨hfirst, hrest⟩ := List.forall_mem_cons.mp h
    have hstep : t.addFolders (first :: rest) = (t.addFolder first).addFolders rest := rfl
    rw [hstep, addFolder_of_isFolder hfirst, ih hrest]

theorem makeFoldersFrom_eq_ok_iff {components : List String} :
    t.makeFoldersFrom place components = .ok t' ↔
      (∀ stop ∈ stops place components, t.isFile stop = false) ∧ t' = t.addFolders (stops place components) := by
  induction components generalizing t place with
  | nil =>
    rw [makeFoldersFrom, Except.ok.injEq]
    exact ⟨fun h => ⟨fun _ hstop => absurd hstop List.not_mem_nil, h.symm⟩, fun h => h.2.symm⟩
  | cons component rest ih =>
    have hfile : ∀ stop, (t.addFolder (next place component)).isFile stop = t.isFile stop := by
      simp [isFile, contents?]
    rw [makeFoldersFrom, stops, List.forall_mem_cons]
    by_cases hnext : t.isFile (next place component) = true
    · simp [hnext]
    · simp only [hnext, Bool.false_eq_true, if_false, ih, hfile, true_and]
      rfl

theorem makeFolders_eq_ok_iff :
    t.makeFolders path = .ok t' ↔ '\x00' ∉ path.toList ∧ (∀ stop ∈ t.passed path, t.isFile stop = false) ∧
      t' = t.addFolders (t.passed path) := by
  unfold makeFolders
  rw [bind_eq_ok, passed, ← makeFoldersFrom_eq_ok_iff]
  simp [checkPath_eq_ok_iff]

end Folders

section Joining

variable {other : String}

theorem foldl_mem_stops (place : Place) {components : List String} (h : components ≠ []) :
    components.foldl next place ∈ stops place components := by
  induction components generalizing place with
  | nil => exact absurd rfl h
  | cons component rest ih =>
    cases rest with
    | nil => exact List.mem_cons_self
    | cons second rest => exact List.mem_cons_of_mem _ (ih (next place component) (List.cons_ne_nil second rest))

theorem placeOf_mem_passed (t : FileTree) (path : String) : t.placeOf path ∈ t.passed path := by
  refine foldl_mem_stops _ fun hnil => ?_
  have hcomponents := components_eq path
  rw [hnil] at hcomponents
  cases hcomponents

theorem writable_join_iff (hname : IsComponent name) (hother : IsComponent other) :
    t.Writable (join (join folder name) other) ↔ '\x00' ∉ folder.toList ∧
      (∀ stop ∈ t.startOf folder :: t.passed (join folder name), t.isFolder stop = true) ∧
      t.isFile (t.placeOf (join folder name)) = false ∧
      t.isFolder (t.placeOf (join (join folder name) other)) = false := by
  have hcomponents := FilePath.components_join_join hname hother folder
  have hbefore : (components (join (join folder name) other)).dropLast = components (join folder name) := by
    rw [hcomponents, List.dropLast_concat]
  have hlast : (components (join (join folder name) other)).getLastD "" = other := by
    rw [hcomponents, List.getLastD_concat]
  have hstart : t.startOf (join (join folder name) other) = t.startOf (join folder name) := startOf_join hother t _
  have hfolder : t.folderOf (join (join folder name) other) = t.placeOf (join folder name) := by
    rw [folderOf, hbefore, hstart, placeOf]
  have hfolders : t.AllFolders (t.startOf (join folder name)) (components (join folder name)) ↔
      ∀ stop ∈ t.startOf folder :: t.passed (join folder name), t.isFolder stop = true := by
    rw [AllFolders, passed, startOf_join hname]
  constructor
  · intro h
    have hall := h.folders
    rw [hbefore, hstart, hfolders] at hall
    have hnul := h.no_nul
    rw [FilePath.nul_mem_join_iff hother, FilePath.nul_mem_join_iff hname] at hnul
    exact ⟨hnul, hall, hfolder ▸ h.no_file, h.no_folder⟩
  · rintro ⟨hnul, hall, hfile, hfree⟩
    refine ⟨?_, ?_, hfolder ▸ hfile, ?_, hfree⟩
    · rwa [FilePath.nul_mem_join_iff hother, FilePath.nul_mem_join_iff hname]
    · rwa [hbefore, hstart, hfolders]
    · rw [hlast]
      exact ⟨by simp [stays, hother.ne_empty, hother.ne_point], hother.ne_points⟩

end Joining

end FileTree

end EditorTheme
