import EditorTheme.CommandLine.Run
import EditorTheme.Proofs.CommandLine.Export

/-!
What a run of the command does to the files. A theme is compiled as a whole before the first file is written, and no
fault of a theme comes up after that; so a run that reports a fault leaves the tree as it was, and one that ends well
has written all it was asked for and nothing else.
-/

set_option autoImplicit false
set_option relaxedAutoImplicit false

namespace EditorTheme

open FilePath (IsComponent components)

namespace FileTree

theorem foldl_next_of_components {names : List String} (h : ∀ name ∈ names, IsComponent name) (place : Place) :
    names.foldl next place = place ++ names := by
  induction names generalizing place with
  | nil => exact (List.append_nil place).symm
  | cons name rest ih =>
    obtain ⟨hname, hrest⟩ := List.forall_mem_cons.mp h
    rw [List.foldl_cons, ih hrest, next_of_isComponent hname, List.append_assoc, List.singleton_append]

theorem placeOf_currentPath {t : FileTree} (h : ∀ name ∈ t.current, IsComponent name) :
    t.placeOf t.currentPath = t.current := by
  have hcomponents : components t.currentPath = "" :: components ("/".intercalate t.current) :=
    FilePath.components_slash "" _
  have hstart : t.startOf t.currentPath = [] := by
    rw [startOf, currentPath, FilePath.isAbsolute_append (by decide)]
    rfl
  rw [placeOf, hstart, hcomponents]
  by_cases hnil : t.current = []
  · rw [hnil]
    rfl
  · rw [FilePath.components_intercalate (fun name hname => (h name hname).no_slash) hnil, List.foldl_cons,
      foldl_next_of_components h]
    rfl

end FileTree

namespace CommandLine

variable {tree : FileTree} {arguments : List String} {r : Request} {t : Theme Float}

/-- What a run does to write a theme: its Lua files first, and then the palette if it is asked for. -/
def exportActions (tree : FileTree) (r : Request) (t : Theme Float) : List FileAction :=
  Export.luaActions t (outputFolder tree r) ++ (palettePath? r).toList.flatMap (Export.jsonActions t)

def endingOf (fault : Option FileTree.Fault) : Ending :=
  (fault.map fun fault => .interrupted (.file fault)).getD (.exit 0)

theorem exportTheme_eq (tree : FileTree) (r : Request) (notes : List Note) (t : Theme Float) :
    (exportTheme tree r notes t).tree = (tree.perform (exportActions tree r t)).tree ∧
      (exportTheme tree r notes t).ending = endingOf (tree.perform (exportActions tree r t)).fault := by
  unfold exportTheme exportActions endingOf
  cases hlua : (tree.perform (Export.luaActions t (outputFolder tree r))).fault with
  | some fault =>
    rw [FileTree.perform_append_of_some hlua]
    simp [hlua]
  | none =>
    rw [FileTree.perform_append_of_none hlua]
    cases palettePath? r with
    | none => simp [hlua, FileTree.perform]
    | some path =>
      have hactions : (some path).toList.flatMap (Export.jsonActions t) = Export.jsonActions t path := by simp
      rw [hactions]
      cases hjson : ((tree.perform (Export.luaActions t (outputFolder tree r))).tree.perform
        (Export.jsonActions t path)).fault <;> simp [hlua, hjson]

theorem exists_jsonActions_eq (t : Theme Float) (path : String) :
    ∃ before, Export.jsonActions t path = before ++ [.write path t.paletteJson] ∧
      before.filterMap FileAction.written? = [] := by
  refine ⟨_, rfl, ?_⟩
  split <;> rfl

theorem not_mem_writtenPlaces_palette {place : Place} (h : ∀ path ∈ palettePath? r, place ≠ tree.placeOf path) :
    place ∉ tree.writtenPlaces ((palettePath? r).toList.flatMap (Export.jsonActions t)) := by
  cases hpath : palettePath? r with
  | none => exact List.not_mem_nil
  | some path =>
    obtain ⟨before, hactions, hbefore⟩ := exists_jsonActions_eq t path
    rw [Option.toList_some, List.flatMap_singleton, hactions, FileTree.writtenPlaces_append, FileTree.writtenPlaces,
      hbefore]
    exact fun hmem => h path hpath (List.mem_singleton.mp hmem)

/-- What stands in a tree after a theme has been written as a request asks for. -/
structure Exported (tree : FileTree) (r : Request) (t : Theme Float) (result : FileTree) : Prop where
  module_place : tree.placeOf (Export.paths t.name (outputFolder tree r)).module =
    tree.placeOf (outputFolder tree r) ++ ["lua", t.name, "init.lua"]
  loader_place : tree.placeOf (Export.paths t.name (outputFolder tree r)).loader =
    tree.placeOf (outputFolder tree r) ++ ["colors", t.name ++ ".lua"]
  folder_place : (∀ name ∈ tree.current, IsComponent name) → tree.placeOf (outputFolder tree r) =
    if r.output.getD "" = "" then tree.current else tree.placeOf (r.output.getD "")
  others : ∀ place, place ≠ tree.placeOf (Export.paths t.name (outputFolder tree r)).module →
    place ≠ tree.placeOf (Export.paths t.name (outputFolder tree r)).loader →
    (∀ path ∈ palettePath? r, place ≠ tree.placeOf path) → result.contents? place = tree.contents? place
  module_text : (∀ path ∈ palettePath? r,
      tree.placeOf (Export.paths t.name (outputFolder tree r)).module ≠ tree.placeOf path) →
    result.read? (Export.paths t.name (outputFolder tree r)).module = some (.text (Lua.moduleSource t))
  loader_text : (∀ path ∈ palettePath? r,
      tree.placeOf (Export.paths t.name (outputFolder tree r)).loader ≠ tree.placeOf path) →
    result.read? (Export.paths t.name (outputFolder tree r)).loader = some (.text (Lua.loaderSource t))
  palette_text : ∀ path ∈ palettePath? r, result.read? path = some (.text t.paletteJson)

theorem placeOf_outputFolder (h : ∀ name ∈ tree.current, IsComponent name) (r : Request) :
    tree.placeOf (outputFolder tree r) =
      if r.output.getD "" = "" then tree.current else tree.placeOf (r.output.getD "") := by
  unfold outputFolder
  cases r.output with
  | none => exact (FileTree.placeOf_currentPath h).trans (if_pos rfl).symm
  | some folder =>
    by_cases hempty : folder = ""
    · subst hempty
      exact (FileTree.placeOf_currentPath h).trans (if_pos rfl).symm
    · simp [hempty]

theorem name_of_compile {path : String} (h : ThemeFile.compile tree path = .ok t) : Expression.Name t.name.toList := by
  obtain ⟨d, hload, hcompile⟩ := bind_eq_ok.mp h
  obtain ⟨data, -, hread⟩ := bind_eq_ok.mp hload
  exact Theme.name_of_compile hread hcompile

theorem exported_of_perform (hname : Expression.Name t.name.toList)
    (h : (tree.perform (exportActions tree r t)).fault = none) :
    Exported tree r t (tree.perform (exportActions tree r t)).tree := by
  have hcomponent := Export.isComponent_of_name hname
  have hne := Export.placeOf_module_ne_loader hcomponent tree (outputFolder tree r)
  refine ⟨Export.placeOf_module hcomponent tree _, Export.placeOf_loader hcomponent tree _,
    fun hcurrent => placeOf_outputFolder hcurrent r, ?_, ?_, ?_, ?_⟩
  · intro place hmodule hloader hpalette
    refine (FileTree.follows_perform tree (exportActions tree r t)).contents place ?_
    rw [exportActions, FileTree.writtenPlaces_append]
    intro hmem
    rcases List.mem_append.mp hmem with hlua | hmem
    · rcases List.mem_cons.mp hlua with heq | hlua
      · exact hmodule heq
      · exact hloader (List.mem_singleton.mp hlua)
    · exact not_mem_writtenPlaces_palette hpalette hmem
  · intro hpalette
    refine FileTree.read?_perform [_, _] (_ :: _) h fun hmem => ?_
    rcases List.mem_cons.mp hmem with heq | hmem
    · exact hne heq
    · exact not_mem_writtenPlaces_palette hpalette hmem
  · intro hpalette
    exact FileTree.read?_perform [_, _, _] _ h (not_mem_writtenPlaces_palette hpalette)
  · intro path hpath
    obtain ⟨before, hactions, -⟩ := exists_jsonActions_eq t path
    have hexport : exportActions tree r t =
        (Export.luaActions t (outputFolder tree r) ++ before) ++ .write path t.paletteJson :: [] := by
      rw [exportActions, Option.mem_def.mp hpath, Option.toList_some, List.flatMap_singleton, hactions,
        List.append_assoc]
    rw [hexport] at h ⊢
    exact FileTree.read?_perform _ [] h List.not_mem_nil

/-- A run of a request either fails before it writes anything, or has compiled the theme and does what the export asks
for. -/
theorem runRequest_cases (tree : FileTree) (r : Request) :
    (∃ notes failure, runRequest tree r = failed tree r notes failure) ∨
      ∃ notes t, ThemeFile.compile tree r.filename = .ok t ∧ runRequest tree r = exportTheme tree r notes t := by
  unfold runRequest
  cases hload : (ThemeFile.load tree r.filename : Except (Failure Float) ThemeDocument) with
  | error failure => exact .inl ⟨[], failure, rfl⟩
  | ok document =>
    cases hcompile : (Theme.compile document : Except (Failure Float) (Theme Float)) with
    | error failure => exact .inl ⟨Theme.notes Float document, failure, by simp only [hcompile]⟩
    | ok t =>
      exact .inr ⟨Theme.notes Float document, t, (bind_of_ok hload _).trans hcompile, by simp only [hcompile]⟩

theorem ending_failed_ne (tree : FileTree) (r : Request) (notes : List Note) (failure : Failure Float) :
    (failed tree r notes failure).ending ≠ .exit 0 := by
  cases failure <;> simp [failed, interruptionOf]

theorem endingOf_eq_exit_iff {fault : Option FileTree.Fault} {code : Nat} :
    endingOf fault = .exit code ↔ fault = none ∧ code = 0 := by
  cases fault <;> simp [endingOf, eq_comm]

/-- A run that ends with an exit code other than 0, and so every run that reports a fault of its theme, leaves the tree
as it was. A run that ends with 0 has shown the help, or has compiled the theme and written it as it was asked to, and
nothing else. -/
theorem run_all_or_nothing (tree : FileTree) (arguments : List String) :
    (∀ code, code ≠ 0 → (run tree arguments).ending = .exit code → (run tree arguments).tree = tree) ∧
    ((run tree arguments).ending = .exit 0 →
      (Request.read arguments = .error .help ∧ (run tree arguments).tree = tree) ∨
      ∃ r t, Request.read arguments = .ok r ∧ ThemeFile.compile tree r.filename = .ok t ∧
        Exported tree r t (run tree arguments).tree) := by
  unfold run
  cases hread : Request.read arguments with
  | error refusal =>
    cases refusal with
    | help => exact ⟨fun _ _ _ => rfl, fun _ => .inl ⟨rfl, rfl⟩⟩
    | usage e => exact ⟨fun _ _ _ => rfl, fun h => by cases h⟩
  | ok r =>
    rcases runRequest_cases tree r with ⟨notes, failure, hrun⟩ | ⟨notes, t, hcompile, hrun⟩
    · dsimp only
      rw [hrun]
      refine ⟨fun _ _ _ => rfl, fun h => absurd h (ending_failed_ne tree r notes failure)⟩
    · obtain ⟨htree, hending⟩ := exportTheme_eq tree r notes t
      dsimp only
      rw [hrun, htree, hending]
      refine ⟨fun code hcode h => absurd (endingOf_eq_exit_iff.mp h).2 hcode, fun h => .inr ⟨r, t, rfl, hcompile, ?_⟩⟩
      exact exported_of_perform (name_of_compile hcompile) (endingOf_eq_exit_iff.mp h).1

def emberFolder : FileTree :=
  (FileTree.atFolder ["home"]).put ["home", "ember.toml"]
    (.text "name = \"ember\"\nbackground = \"dark\"\n[colors]\nbase = \"#336699\"\nlit = \"lighten(base, 0.25)\"\n")

/-- A preview and the palette are asked for, and an empty output folder, which counts as the current one. -/
def emberArguments : List String := ["ember.toml", "", "--preview", "--palette-json", "out/ember.json"]

theorem run_all_or_nothing_ember :
    ∃ t : Theme Float, ThemeFile.compile emberFolder "ember.toml" = .ok t ∧
      (run emberFolder emberArguments).tree.read? "out/ember.json" = some (.text t.paletteJson) ∧
      (run emberFolder emberArguments).tree.contents? ["home", "ember.toml"] =
        emberFolder.contents? ["home", "ember.toml"] := by
  have hread : Request.read emberArguments = .ok ⟨"ember.toml", some "", some "out/ember.json", true, false⟩ := by rfl
  have hending : (run emberFolder emberArguments).ending = .exit 0 := by decide +kernel
  rcases (run_all_or_nothing emberFolder emberArguments).2 hending with ⟨hhelp, -⟩ | ⟨r, t, hr, hcompile, hexported⟩
  · rw [hread] at hhelp
    cases hhelp
  · obtain rfl := Except.ok.inj (hread.symm.trans hr)
    have hfolder : emberFolder.placeOf
        (outputFolder emberFolder ⟨"ember.toml", some "", some "out/ember.json", true, false⟩) = ["home"] := by
      decide +kernel
    refine ⟨t, hcompile, hexported.palette_text "out/ember.json" rfl, hexported.others _ ?_ ?_ ?_⟩
    · rw [hexported.module_place, hfolder]
      simp
    · rw [hexported.loader_place, hfolder]
      simp
    · rintro path hpath
      obtain rfl : "out/ember.json" = path := Option.some.inj hpath
      decide +kernel

end CommandLine

end EditorTheme
