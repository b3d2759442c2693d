import EditorTheme.FilePath
import Mathlib.Data.List.Basic

/-!
Components behind a folder. A name that is one component of a path becomes the last component when it is joined to a
folder; nothing else about the path of the folder changes, but that an empty component at its end may go.
-/

set_option autoImplicit false
set_option relaxedAutoImplicit false

namespace EditorTheme.FilePath

/-- A name that is one component of a path and leads to something in the folder where it stands. -/
structure IsComponent (name : String) : Prop where
  no_slash : '/' ∉ name.toList
  no_nul : '\x00' ∉ name.toList
  ne_empty : name ≠ ""
  ne_point : name ≠ "."
  ne_points : name ≠ ".."

variable {name : String}

namespace IsComponent

theorem not_absolute (h : IsComponent name) : isAbsolute name = false := by
  refine decide_eq_false fun hslash => ?_
  obtain ⟨rest, hname⟩ := List.head?_eq_some_iff.mp hslash
  exact h.no_slash (hname ▸ List.mem_cons_self)

theorem append (h : IsComponent name) {ending : String} (hslash : '/' ∉ ending.toList) (hnul : '\x00' ∉ ending.toList)
    (hlong : 2 ≤ ending.length) : IsComponent (name ++ ending) := by
  have hpositive : name.length ≠ 0 := fun hzero => h.ne_empty (String.length_eq_zero_iff.mp hzero)
  have hlength : 3 ≤ (name ++ ending).length := by
    rw [String.length_append]
    omega
  have hne : ∀ short : String, short.length < 3 → name ++ ending ≠ short := by
    rintro short hshort rfl
    omega
  refine ⟨?_, ?_, hne "" (by decide), hne "." (by decide), hne ".." (by decide)⟩
  · simp [h.no_slash, hslash]
  · simp [h.no_nul, hnul]

end IsComponent

theorem components_eq_singleton {path : String} (h : '/' ∉ path.toList) : components path = [path] := by
  rw [components, List.splitOn_eq_singleton h, List.map_singleton, String.ofList_toList]

theorem components_slash (folder path : String) :
    components (folder ++ "/" ++ path) = components folder ++ components path := by
  have happend : (folder ++ "/" ++ path).toList = folder.toList ++ '/' :: path.toList := by simp
  rw [components, happend, List.splitOn_append_cons_self, List.map_append]
  rfl

theorem components_intercalate {names : List String} (h : ∀ name ∈ names, '/' ∉ name.toList) (hne : names ≠ []) :
    components ("/".intercalate names) = names := by
  have hpieces : ∀ piece ∈ names.map String.toList, '/' ∉ piece := List.forall_mem_map.mpr h
  have hsplit := List.splitOn_intercalate '/' hpieces (by simpa using hne)
  rw [components, String.toList_intercalate]
  refine (congrArg _ hsplit).trans ?_
  simp

theorem exists_components_eq (path : String) : ∃ before last, components path = before ++ [last] := by
  rcases List.eq_nil_or_concat (components path) with hnil | ⟨before, last, hconcat⟩
  · exact absurd (List.map_eq_nil_iff.mp hnil) (List.splitOn_ne_nil '/' path.toList)
  · exact ⟨before, last, hconcat.trans List.concat_eq_append⟩

/-- What a folder puts before the relative paths that are joined to it: nothing if it is empty, and else its path with
one slash more, if there is none at its end. -/
theorem exists_lead (folder : String) :
    ∃ lead, (∀ path, isAbsolute path = false → join folder path = lead ++ path) ∧
      (folder = "" ∧ lead = "" ∨
        ∃ start, lead = start ++ "/" ∧ (folder = start ++ "/" ∨ folder = start ∧ start ≠ "")) := by
  by_cases hempty : folder = ""
  · subst hempty
    exact ⟨"", fun path h => by simp [join, h], .inl ⟨rfl, rfl⟩⟩
  by_cases hslash : folder.toList.getLast? = some '/'
  · obtain ⟨start, hstart⟩ := List.getLast?_eq_some_iff.mp hslash
    have hfolder : folder = String.ofList start ++ "/" := by
      rw [← String.toList_inj, hstart]
      simp
    exact ⟨folder, fun path h => by simp [join, h, hslash], .inr ⟨String.ofList start, hfolder, .inl hfolder⟩⟩
  · refine ⟨folder ++ "/", fun path h => ?_, .inr ⟨folder, rfl, .inr ⟨rfl, hempty⟩⟩⟩
    simp [join, h, hempty, hslash]

theorem components_join (h : IsComponent name) (folder : String) :
    ∃ before, components (join folder name) = before ++ [name] ∧
      (components folder = before ∨ components folder = before ++ [""]) := by
  have hname : components name = [name] := components_eq_singleton h.no_slash
  obtain ⟨lead, hjoin, hlead⟩ := exists_lead folder
  rw [hjoin name h.not_absolute]
  rcases hlead with ⟨rfl, rfl⟩ | ⟨start, rfl, hfolder⟩
  · exact ⟨[], by rw [String.empty_append, hname]; rfl, .inr rfl⟩
  · refine ⟨components start, by rw [components_slash, hname], ?_⟩
    rcases hfolder with rfl | ⟨rfl, -⟩
    · have hend := components_slash start ""
      rw [String.append_empty] at hend
      exact .inr hend
    · exact .inl rfl

theorem isAbsolute_append {path : String} (h : path ≠ "") (rest : String) :
    isAbsolute (path ++ rest) = isAbsolute path := by
  cases hpath : path.toList with
  | nil => exact absurd (String.toList_eq_nil_iff.mp hpath) h
  | cons first later => simp [isAbsolute, hpath]

theorem isAbsolute_join (h : IsComponent name) (folder : String) :
    isAbsolute (join folder name) = isAbsolute folder := by
  obtain ⟨lead, hjoin, hlead⟩ := exists_lead folder
  rw [hjoin name h.not_absolute]
  rcases hlead with ⟨rfl, rfl⟩ | ⟨start, rfl, rfl | ⟨rfl, hne⟩⟩
  · rw [String.empty_append, h.not_absolute]
    rfl
  · exact isAbsolute_append (by simp) name
  · rw [String.append_assoc, isAbsolute_append hne]

theorem nul_mem_join_iff (h : IsComponent name) (folder : String) :
    '\x00' ∈ (join folder name).toList ↔ '\x00' ∈ folder.toList := by
  obtain ⟨lead, hjoin, hlead⟩ := exists_lead folder
  rw [hjoin name h.not_absolute]
  rcases hlead with ⟨rfl, rfl⟩ | ⟨start, rfl, rfl | ⟨rfl, -⟩⟩ <;> simp [h.no_nul]

theorem components_join_join (h : IsComponent name) {other : String} (hother : IsComponent other) (folder : String) :
    components (join (join folder name) other) = components (join folder name) ++ [other] := by
  obtain ⟨before, hname, -⟩ := components_join h folder
  obtain ⟨before', hjoin, hend | hend⟩ := components_join hother (join folder name)
  · rw [hjoin, hend]
  · rw [hname] at hend
    exact absurd (List.singleton_inj.mp (List.append_inj' hend rfl).2) h.ne_empty

theorem join_join {other : String} (lead : String) (hrelative : isAbsolute (lead ++ name) = false)
    (h : IsComponent name) (hother : IsComponent other) (folder : String) :
    join (join folder (lead ++ name)) other = join folder (lead ++ name ++ "/" ++ other) := by
  have hne : lead ++ name ≠ "" := fun heq => h.ne_empty (String.append_eq_empty_iff.mp heq).2
  have hwhole : isAbsolute (lead ++ name ++ "/" ++ other) = false := by
    rw [String.append_assoc, isAbsolute_append hne, hrelative]
  have hslash : name.toList.getLast? ≠ some '/' := fun hlast => h.no_slash (List.mem_of_getLast? hlast)
  obtain ⟨start, hjoin, -⟩ := exists_lead folder
  rw [hjoin _ hrelative, hjoin _ hwhole]
  simp [join, hother.not_absolute, h.ne_empty, hslash, String.append_assoc]

end EditorTheme.FilePath
