import EditorTheme.Proofs.CommandLine.Actions
import EditorTheme.Proofs.Expression.Grammar
import EditorTheme.Proofs.Lua.Loader
import EditorTheme.Proofs.Theme.Compilation
import EditorTheme.Proofs.Theme.Document

/-!
Where a theme is written. The name of a theme that compiles is one component of a path and stands in Lua as it is, so
the two files lie below the folder that is asked for, and the loader asks for the module that was written. Writing
succeeds exactly if nothing is in the way, and writing again changes nothing.
-/

set_option autoImplicit false
set_option relaxedAutoImplicit false

namespace EditorTheme

open FilePath (IsComponent)
open Expression (Name)

namespace Theme

variable {α : Type}

theorem name_of_compile [Scalar α] {data : List (String × Value)} {d : ThemeDocument} {theme : Theme α}
    (hread : (ThemeDocument.ofData data : Except (Failure α) ThemeDocument) = .ok d) (hcompile : compile d = .ok theme) :
    Name theme.name.toList := by
  obtain ⟨hues, hstages⟩ := compile_eq_ok_iff.mp hcompile
  rw [hstages.name]
  exact (ThemeDocument.ofData_eq_ok_iff.mp hread).isName

theorem name_of_ofData [Scalar α] {data : List (String × Value)} {theme : Theme α} (h : ofData data = .ok theme) :
    Name theme.name.toList := by
  obtain ⟨d, hread, hcompile⟩ := bind_eq_ok.mp h
  exact name_of_compile hread hcompile

end Theme

namespace Export

variable {α : Type} [Scalar α] {theme : Theme α} {t : FileTree} {name folder : String}

section Names

theorem isComponent_of_name (h : Name name.toList) : IsComponent name where
  no_slash := h.not_mem (by decide) (by decide) (by decide)
  no_nul := h.not_mem (by decide) (by decide) (by decide)
  ne_empty := by
    rintro rfl
    cases h
  ne_point := by
    rintro rfl
    exact h.not_mem (c := '.') (by decide) (by decide) (by decide) (by decide)
  ne_points := by
    rintro rfl
    exact h.not_mem (c := '.') (by decide) (by decide) (by decide) (by decide)

theorem isComponent_lua : IsComponent "lua" := by constructor <;> decide

theorem isComponent_colors : IsComponent "colors" := by constructor <;> decide

theorem isComponent_init : IsComponent "init.lua" := by constructor <;> decide

theorem isComponent_loader (h : IsComponent name) : IsComponent (name ++ ".lua") :=
  h.append (by decide) (by decide) (by decide)

omit [Scalar α] in
theorem loaderSource_eq (h : Name theme.name.toList) :
    Lua.loaderSource theme = "require(\"" ++ theme.name ++ "\").init()\n" := by
  have hquoted : Lua.quoted theme.name = "\"" ++ theme.name ++ "\"" :=
    Lua.quoted_eq (h.not_mem (by decide) (by decide) (by decide)) (h.not_mem (by decide) (by decide) (by decide))
      (h.not_mem (by decide) (by decide) (by decide))
  rw [Lua.loaderSource, hquoted, ← String.toList_inj]
  simp

theorem module_eq (h : Name name.toList) (folder : String) :
    (paths name folder).module = FilePath.join folder (Lua.modulePath name) := by
  have hname := isComponent_of_name h
  have hpoint : '.' ∉ name.toList := h.not_mem (by decide) (by decide) (by decide)
  have hrelative : FilePath.isAbsolute ("lua/" ++ name) = false :=
    (FilePath.isAbsolute_append (by decide) name).trans (by decide)
  have hlua : FilePath.join (FilePath.join folder "lua") name = FilePath.join folder ("lua/" ++ name) :=
    FilePath.join_join "" (by decide) isComponent_lua hname folder
  have hmodule := FilePath.join_join "lua/" hrelative hname isComponent_init folder
  rw [paths, hlua, Lua.modulePath_eq hpoint, hmodule, String.append_assoc]
  rfl

end Names

section Places

variable (h : IsComponent name)

include h

theorem placeOf_moduleFolder (t : FileTree) (folder : String) :
    t.placeOf (paths name folder).moduleFolder = t.placeOf folder ++ ["lua", name] := by
  rw [paths, FileTree.placeOf_join h, FileTree.placeOf_join isComponent_lua, List.append_assoc]
  rfl

omit h in
theorem placeOf_loaderFolder (t : FileTree) (folder : String) :
    t.placeOf (paths name folder).loaderFolder = t.placeOf folder ++ ["colors"] :=
  FileTree.placeOf_join isComponent_colors t folder

theorem placeOf_module (t : FileTree) (folder : String) :
    t.placeOf (paths name folder).module = t.placeOf folder ++ ["lua", name, "init.lua"] := by
  have hjoin := FileTree.placeOf_join isComponent_init t (paths name folder).moduleFolder
  rw [placeOf_moduleFolder h, List.append_assoc] at hjoin
  exact hjoin

theorem placeOf_loader (t : FileTree) (folder : String) :
    t.placeOf (paths name folder).loader = t.placeOf folder ++ ["colors", name ++ ".lua"] := by
  have hjoin := FileTree.placeOf_join (isComponent_loader h) t (paths name folder).loaderFolder
  rw [placeOf_loaderFolder, List.append_assoc] at hjoin
  exact hjoin

end Places

/-- The tree with all folders that the files of a theme need. -/
def withFolders (t : FileTree) (name folder : String) : FileTree :=
  (t.addFolders (t.passed (paths name folder).moduleFolder)).addFolders (t.passed (paths name folder).loaderFolder)

/-- Nothing is in the way of the files of a theme: no file stands where a folder has to be, and no folder where a file
has to be. -/
structure Free (t : FileTree) (name folder : String) : Prop where
  no_nul : '\x00' ∉ folder.toList
  moduleFolder : ∀ stop ∈ t.passed (paths name folder).moduleFolder, t.isFile stop = false
  loaderFolder : ∀ stop ∈ t.passed (paths name folder).loaderFolder, t.isFile stop = false
  module : (withFolders t name folder).isFolder (t.placeOf (paths name folder).module) = false
  loader : (withFolders t name folder).isFolder (t.placeOf (paths name folder).loader) = false

/-- The tree with the files of a theme and their folders. -/
def withFiles (t : FileTree) (theme : Theme α) (folder : String) : FileTree :=
  ((withFolders t theme.name folder).put (t.placeOf (paths theme.name folder).module)
    (.text (Lua.moduleSource theme))).put (t.placeOf (paths theme.name folder).loader) (.text (Lua.loaderSource theme))

section Folders

theorem current_withFolders (t : FileTree) (name folder : String) :
    (withFolders t name folder).current = t.current := by
  simp [withFolders]

theorem isFile_withFolders (t : FileTree) (name folder : String) (place : Place) :
    (withFolders t name folder).isFile place = t.isFile place := by
  rw [withFolders, FileTree.isFile_addFolders, FileTree.isFile_addFolders]

theorem isFolder_withFolders_iff {place : Place} :
    (withFolders t name folder).isFolder place = true ↔ t.isFolder place = true ∨
      place ∈ t.passed (paths name folder).moduleFolder ∨ place ∈ t.passed (paths name folder).loaderFolder := by
  rw [withFolders, FileTree.isFolder_addFolders_iff, FileTree.isFolder_addFolders_iff, or_assoc]

end Folders

section Writing

variable (hname : IsComponent name)

include hname

theorem placeOf_module_ne_loader (t : FileTree) (folder : String) :
    t.placeOf (paths name folder).module ≠ t.placeOf (paths name folder).loader := by
  rw [placeOf_module hname, placeOf_loader hname]
  simp

theorem writable_module_iff :
    t.Writable (paths name folder).module ↔ '\x00' ∉ folder.toList ∧
      (∀ stop ∈ t.startOf folder :: t.passed (paths name folder).moduleFolder, t.isFolder stop = true) ∧
      t.isFile (t.placeOf (paths name folder).moduleFolder) = false ∧
      t.isFolder (t.placeOf (paths name folder).module) = false := by
  have hjoin : t.Writable (FilePath.join (FilePath.join (FilePath.join folder "lua") name) "init.lua") ↔ _ :=
    FileTree.writable_join_iff hname isComponent_init
  rwa [FilePath.nul_mem_join_iff isComponent_lua, FileTree.startOf_join isComponent_lua] at hjoin

theorem writable_loader_iff :
    t.Writable (paths name folder).loader ↔ '\x00' ∉ folder.toList ∧
      (∀ stop ∈ t.startOf folder :: t.passed (paths name folder).loaderFolder, t.isFolder stop = true) ∧
      t.isFile (t.placeOf (paths name folder).loaderFolder) = false ∧
      t.isFolder (t.placeOf (paths name folder).loader) = false :=
  FileTree.writable_join_iff isComponent_colors (isComponent_loader hname)

theorem writable_module (h : Free t name folder)
    (hstart : (withFolders t name folder).isFolder (t.startOf folder) = true) :
    (withFolders t name folder).Writable (paths name folder).module := by
  have hcurrent := current_withFolders t name folder
  rw [writable_module_iff hname, FileTree.startOf_of_current hcurrent, FileTree.passed_of_current hcurrent,
    FileTree.placeOf_of_current hcurrent, FileTree.placeOf_of_current hcurrent, isFile_withFolders]
  refine ⟨h.no_nul, List.forall_mem_cons.mpr ⟨hstart, fun stop hstop => ?_⟩, ?_, h.module⟩
  · exact isFolder_withFolders_iff.mpr (.inr (.inl hstop))
  · exact h.moduleFolder _ (FileTree.placeOf_mem_passed t _)

theorem writable_loader (h : Free t name folder)
    (hstart : (withFolders t name folder).isFolder (t.startOf folder) = true) (contents : FileContents) :
    ((withFolders t name folder).put (t.placeOf (paths name folder).module) contents).Writable
      (paths name folder).loader := by
  have hcurrent : ((withFolders t name folder).put (t.placeOf (paths name folder).module) contents).current =
      t.current := by rw [FileTree.current_put, current_withFolders]
  have hne : t.placeOf (paths name folder).loaderFolder ≠ t.placeOf (paths name folder).module := by
    rw [placeOf_module hname, placeOf_loaderFolder]
    simp
  rw [writable_loader_iff hname, FileTree.startOf_of_current hcurrent, FileTree.passed_of_current hcurrent,
    FileTree.placeOf_of_current hcurrent, FileTree.placeOf_of_current hcurrent, FileTree.isFile,
    FileTree.contents?_put_of_ne hne, ← FileTree.isFile, isFile_withFolders]
  simp only [FileTree.isFolder_put]
  refine ⟨h.no_nul, List.forall_mem_cons.mpr ⟨hstart, fun stop hstop => ?_⟩, ?_, h.loader⟩
  · exact isFolder_withFolders_iff.mpr (.inr (.inr hstop))
  · exact h.loaderFolder _ (FileTree.placeOf_mem_passed t _)

theorem makeFolders_of_free (h : Free t name folder) :
    FileAction.apply t (.makeFolders (paths name folder).moduleFolder) =
        .ok (t.addFolders (t.passed (paths name folder).moduleFolder)) ∧
      FileAction.apply (t.addFolders (t.passed (paths name folder).moduleFolder))
        (.makeFolders (paths name folder).loaderFolder) = .ok (withFolders t name folder) := by
  have hpassed := FileTree.passed_of_current
    (FileTree.current_addFolders t (t.passed (paths name folder).moduleFolder)) (paths name folder).loaderFolder
  constructor
  · refine FileTree.makeFolders_eq_ok_iff.mpr ⟨?_, h.moduleFolder, rfl⟩
    rw [paths, FilePath.nul_mem_join_iff hname, FilePath.nul_mem_join_iff isComponent_lua]
    exact h.no_nul
  · refine FileTree.makeFolders_eq_ok_iff.mpr ⟨?_, fun stop hstop => ?_, by rw [hpassed, withFolders]⟩
    · rw [paths, FilePath.nul_mem_join_iff isComponent_colors]
      exact h.no_nul
    · rw [hpassed] at hstop
      rw [FileTree.isFile_addFolders]
      exact h.loaderFolder stop hstop

end Writing

section Performing

variable (hname : IsComponent theme.name)

include hname

theorem perform_of_free (h : Free t theme.name folder)
    (hstart : (withFolders t theme.name folder).isFolder (t.startOf folder) = true) :
    t.perform (luaActions theme folder) = ⟨withFiles t theme folder, luaActions theme folder, none⟩ := by
  have hcurrent := current_withFolders t theme.name folder
  obtain ⟨hmodules, hloaders⟩ := makeFolders_of_free hname h
  have hmodule : FileAction.apply (withFolders t theme.name folder)
      (.write (paths theme.name folder).module (Lua.moduleSource theme)) = .ok _ :=
    FileTree.write_of_writable (writable_module hname h hstart) hcurrent _
  rw [← FileTree.current_put _ (t.placeOf (paths theme.name folder).module)
    (.text (Lua.moduleSource theme))] at hcurrent
  have hloader : FileAction.apply _ (.write (paths theme.name folder).loader (Lua.loaderSource theme)) =
      .ok (withFiles t theme folder) :=
    FileTree.write_of_writable (writable_loader hname h hstart (.text (Lua.moduleSource theme))) hcurrent _
  unfold luaActions
  rw [FileTree.perform_of_apply hmodules, FileTree.perform_of_apply hloaders, FileTree.perform_of_apply hmodule,
    FileTree.perform_of_apply hloader]
  rfl

theorem free_of_perform (h : (t.perform (luaActions theme folder)).fault = none) :
    Free t theme.name folder ∧ (withFolders t theme.name folder).isFolder (t.startOf folder) = true := by
  obtain ⟨first, hmodules, h⟩ := FileTree.fault_perform_cons_iff.mp h
  obtain ⟨second, hloaders, h⟩ := FileTree.fault_perform_cons_iff.mp h
  obtain ⟨third, hmodule, h⟩ := FileTree.fault_perform_cons_iff.mp h
  obtain ⟨fourth, hloader, -⟩ := FileTree.fault_perform_cons_iff.mp h
  obtain ⟨-, hmoduleStops, rfl⟩ := FileTree.makeFolders_eq_ok_iff.mp hmodules
  obtain ⟨-, hloaderStops, hsecond⟩ := FileTree.makeFolders_eq_ok_iff.mp hloaders
  rw [FileTree.passed_of_current (FileTree.current_addFolders t _)] at hloaderStops hsecond
  obtain rfl : second = withFolders t theme.name folder := hsecond
  have hcurrent := current_withFolders t theme.name folder
  obtain ⟨hwritable, rfl⟩ := FileTree.write_eq_ok_iff.mp hmodule
  obtain ⟨hnul, hfolders, -, hmodule⟩ := (writable_module_iff hname).mp hwritable
  obtain ⟨-, -, -, hloader⟩ := (writable_loader_iff hname).mp (FileTree.write_eq_ok_iff.mp hloader).1
  rw [FileTree.placeOf_of_current hcurrent] at hmodule
  rw [FileTree.isFolder_put, FileTree.placeOf_of_current (FileTree.current_put _ _ _),
    FileTree.placeOf_of_current hcurrent] at hloader
  refine ⟨⟨hnul, hmoduleStops, fun stop hstop => ?_, hmodule, hloader⟩, ?_⟩
  · rw [← hloaderStops stop hstop, FileTree.isFile_addFolders]
  · rw [← FileTree.startOf_of_current hcurrent]
    exact hfolders _ List.mem_cons_self

end Performing

section Again

theorem isFolder_withFiles (t : FileTree) (theme : Theme α) (folder : String) (place : Place) :
    (withFiles t theme folder).isFolder place = (withFolders t theme.name folder).isFolder place := by
  rw [withFiles, FileTree.isFolder_put, FileTree.isFolder_put]

theorem current_withFiles (t : FileTree) (theme : Theme α) (folder : String) :
    (withFiles t theme folder).current = t.current := by
  rw [withFiles, FileTree.current_put, FileTree.current_put, current_withFolders]

theorem withFolders_withFiles (t : FileTree) (theme : Theme α) (folder : String) :
    withFolders (withFiles t theme folder) theme.name folder = withFiles t theme folder := by
  have hcurrent := current_withFiles t theme folder
  have hfolders : ∀ stop, stop ∈ t.passed (paths theme.name folder).moduleFolder ∨
      stop ∈ t.passed (paths theme.name folder).loaderFolder → (withFiles t theme folder).isFolder stop = true := by
    intro stop hstop
    rw [isFolder_withFiles]
    exact isFolder_withFolders_iff.mpr (.inr hstop)
  rw [withFolders, FileTree.passed_of_current hcurrent, FileTree.passed_of_current hcurrent,
    FileTree.addFolders_of_isFolder fun stop hstop => hfolders stop (.inl hstop),
    FileTree.addFolders_of_isFolder fun stop hstop => hfolders stop (.inr hstop)]

variable (hname : IsComponent theme.name)

include hname

theorem withFiles_withFiles (t : FileTree) (folder : String) :
    withFiles (withFiles t theme folder) theme folder = withFiles t theme folder := by
  have hcurrent := current_withFiles t theme folder
  have hmodule : (withFiles t theme folder).contents? (t.placeOf (paths theme.name folder).module) =
      some (.text (Lua.moduleSource theme)) := by
    rw [withFiles, FileTree.contents?_put_of_ne (placeOf_module_ne_loader hname t folder), FileTree.contents?_put_self]
  have hloader : (withFiles t theme folder).contents? (t.placeOf (paths theme.name folder).loader) =
      some (.text (Lua.loaderSource theme)) := by
    rw [withFiles, FileTree.contents?_put_self]
  have hagain : withFiles (withFiles t theme folder) theme folder =
      ((withFiles t theme folder).put (t.placeOf (paths theme.name folder).module)
        (.text (Lua.moduleSource theme))).put (t.placeOf (paths theme.name folder).loader)
        (.text (Lua.loaderSource theme)) := by
    rw [withFiles, withFolders_withFiles, FileTree.placeOf_of_current hcurrent, FileTree.placeOf_of_current hcurrent]
  rw [hagain, FileTree.put_of_contents? hmodule, FileTree.put_of_contents? hloader]

omit hname in
theorem free_withFiles (h : Free t theme.name folder) : Free (withFiles t theme folder) theme.name folder := by
  have hcurrent := current_withFiles t theme folder
  have hfile : ∀ stop, (withFolders t theme.name folder).isFolder stop = true → t.isFile stop = false →
      (withFiles t theme folder).isFile stop = false := by
    intro stop hfolder hfile
    have hmodule : stop ≠ t.placeOf (paths theme.name folder).module := fun heq =>
      absurd (heq ▸ hfolder) (ne_true_of_eq_false h.module)
    have hloader : stop ≠ t.placeOf (paths theme.name folder).loader := fun heq =>
      absurd (heq ▸ hfolder) (ne_true_of_eq_false h.loader)
    rw [FileTree.isFile, withFiles, FileTree.contents?_put_of_ne hloader, FileTree.contents?_put_of_ne hmodule,
      ← FileTree.isFile, isFile_withFolders, hfile]
  refine ⟨h.no_nul, fun stop hstop => ?_, fun stop hstop => ?_, ?_, ?_⟩
  · rw [FileTree.passed_of_current hcurrent] at hstop
    exact hfile stop (isFolder_withFolders_iff.mpr (.inr (.inl hstop))) (h.moduleFolder stop hstop)
  · rw [FileTree.passed_of_current hcurrent] at hstop
    exact hfile stop (isFolder_withFolders_iff.mpr (.inr (.inr hstop))) (h.loaderFolder stop hstop)
  · rw [withFolders_withFiles, isFolder_withFiles, FileTree.placeOf_of_current hcurrent]
    exact h.module
  · rw [withFolders_withFiles, isFolder_withFiles, FileTree.placeOf_of_current hcurrent]
    exact h.loader

theorem perform_again (h : (t.perform (luaActions theme folder)).fault = none) :
    (t.perform (luaActions theme folder)).tree.perform (luaActions theme folder) =
      t.perform (luaActions theme folder) := by
  obtain ⟨hfree, hstart⟩ := free_of_perform hname h
  rw [perform_of_free hname hfree hstart]
  have hcurrent := current_withFiles t theme folder
  rw [perform_of_free hname (free_withFiles hfree), withFiles_withFiles hname]
  rw [withFolders_withFiles, isFolder_withFiles, FileTree.startOf_of_current hcurrent]
  exact hstart

end Again

/-- What becomes of a tree when a theme is written below a folder. -/
structure Confined (t : FileTree) (theme : Theme α) (folder : String) : Prop where
  module_path : (paths theme.name folder).module = FilePath.join folder (Lua.modulePath theme.name)
  module_place : t.placeOf (paths theme.name folder).module = t.placeOf folder ++ ["lua", theme.name, "init.lua"]
  loader_place : t.placeOf (paths theme.name folder).loader = t.placeOf folder ++ ["colors", theme.name ++ ".lua"]
  others : ∀ place, place ≠ t.placeOf (paths theme.name folder).module →
    place ≠ t.placeOf (paths theme.name folder).loader →
    (t.perform (luaActions theme folder)).tree.contents? place = t.contents? place
  written_iff : t.isFolder t.current = true →
    ((t.perform (luaActions theme folder)).fault = none ↔ Free t theme.name folder)
  module_text : (t.perform (luaActions theme folder)).fault = none →
    (t.perform (luaActions theme folder)).tree.read? (paths theme.name folder).module =
      some (.text (Lua.moduleSource theme))
  loader_text : (t.perform (luaActions theme folder)).fault = none →
    (t.perform (luaActions theme folder)).tree.read? (paths theme.name folder).loader =
      some (.text (Lua.loaderSource theme))
  again : (t.perform (luaActions theme folder)).fault = none →
    (t.perform (luaActions theme folder)).tree.perform (luaActions theme folder) = t.perform (luaActions theme folder)

theorem confined_of_name (hname : Name theme.name.toList) (t : FileTree) (folder : String) :
    Confined t theme folder := by
  have hcomponent := isComponent_of_name hname
  have hne := placeOf_module_ne_loader hcomponent t folder
  refine ⟨module_eq hname folder, placeOf_module hcomponent t folder, placeOf_loader hcomponent t folder,
    ?_, ?_, ?_, ?_, perform_again hcomponent⟩
  · intro place hmodule hloader
    refine (FileTree.follows_perform t (luaActions theme folder)).contents place fun hmem => ?_
    rcases List.mem_cons.mp hmem with hplace | hmem
    · exact hmodule hplace
    · exact hloader (List.mem_singleton.mp hmem)
  · intro hcurrent
    refine ⟨fun h => (free_of_perform hcomponent h).1, fun hfree => ?_⟩
    have hstart : (withFolders t theme.name folder).isFolder (t.startOf folder) = true :=
      isFolder_withFolders_iff.mpr (.inl (FileTree.isFolder_startOf hcurrent folder))
    rw [perform_of_free hcomponent hfree hstart]
  · intro h
    exact FileTree.read?_perform [_, _] [_] h fun hmem => hne (List.mem_singleton.mp hmem)
  · intro h
    exact FileTree.read?_perform [_, _, _] [] h List.not_mem_nil

/-- The name of a theme that compiles is one component of a path, relative and without points, and stands as it is in
the loader, which asks for the module of this name. So whatever folder it is written below, the theme stays there: at
the two places that belong to its name, and written twice as written once. -/
theorem luaActions_confined {data : List (String × Value)} (h : Theme.ofData data = .ok theme) :
    (IsComponent theme.name ∧ FilePath.isAbsolute theme.name = false ∧ '.' ∉ theme.name.toList) ∧
    (Lua.loaderSource theme = "require(\"" ++ theme.name ++ "\").init()\n" ∧
      Lua.requiredModule? (Lua.loaderSource theme).toList = some theme.name.toList) ∧
    ∀ (t : FileTree) (folder : String), Confined t theme folder := by
  have hname := Theme.name_of_ofData h
  have hcomponent := isComponent_of_name hname
  refine ⟨⟨hcomponent, hcomponent.not_absolute, ?_⟩, ⟨loaderSource_eq hname, ?_⟩, confined_of_name hname⟩
  · exact hname.not_mem (by decide) (by decide) (by decide)
  · exact Lua.requiredModule?_loaderSource theme (hname.not_mem (by decide) (by decide) (by decide))

def nightData : List (String × Value) :=
  [("name", .text "nuit-été"), ("background", .text "dark"), ("colors", .table [("base", .text "#336699")])]

theorem luaActions_confined_night : ∃ theme : Theme Float, Theme.ofData nightData = .ok theme ∧
    ((FileTree.atFolder ["home"]).perform (luaActions theme "out")).fault = none ∧
    ((FileTree.atFolder ["home"]).perform (luaActions theme "out")).tree.read? "out/lua/nuit-été/init.lua" =
      some (.text (Lua.moduleSource theme)) := by
  have hok : (Theme.ofData nightData : Except (Failure Float) (Theme Float)).isOk = true := by decide +kernel
  obtain ⟨theme, htheme⟩ := exists_ok_of_isOk hok
  have hname : theme.name = "nuit-été" := by
    have hfound : (Theme.ofData nightData : Except (Failure Float) (Theme Float)).toOption.map Theme.name =
        some "nuit-été" := by decide +kernel
    rw [htheme] at hfound
    exact Option.some.inj hfound
  obtain ⟨-, -, hconfined⟩ := luaActions_confined htheme
  have hnight := hconfined (FileTree.atFolder ["home"]) "out"
  have hfree : Free (FileTree.atFolder ["home"]) "nuit-été" "out" :=
    ⟨by decide, fun _ _ => rfl, fun _ _ => rfl, by decide +kernel, by decide +kernel⟩
  have hfault := (hnight.written_iff (by decide)).mpr (hname ▸ hfree)
  have hread := hnight.module_text hfault
  rw [hname] at hread
  exact ⟨theme, htheme, hfault, hread⟩

end Export

end EditorTheme
