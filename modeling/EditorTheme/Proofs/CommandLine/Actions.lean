import EditorTheme.CommandLine.Export
import EditorTheme.Proofs.FileTree

/-!
Lists of actions on a file tree, done up to the first fault. However they end, folders are kept and only the places
that are written can have other contents than before; and where they end without a fault, what was written last to a
place can be read from the path that it was written to.
-/

set_option autoImplicit false
set_option relaxedAutoImplicit false

namespace EditorTheme.FileTree

open FilePath (components)

variable {t t' t'' : FileTree} {action : FileAction}

/-- A tree after changes to files at some places and perhaps new folders. -/
structure Follows (t t' : FileTree) (written : List Place) : Prop where
  current : t'.current = t.current
  folders : ∀ place, t.isFolder place = true → t'.isFolder place = true
  contents : ∀ place ∉ written, t'.contents? place = t.contents? place

theorem Follows.refl (t : FileTree) (written : List Place) : t.Follows t written :=
  ⟨rfl, fun _ h => h, fun _ _ => rfl⟩

theorem Follows.trans {first second : List Place} (h : t.Follows t' first) (h' : t'.Follows t'' second) :
    t.Follows t'' (first ++ second) where
  current := h'.current.trans h.current
  folders := fun place hplace => h'.folders place (h.folders place hplace)
  contents := by
    intro place hplace
    rw [List.mem_append, not_or] at hplace
    exact (h'.contents place hplace.2).trans (h.contents place hplace.1)

def writtenPlaces (t : FileTree) (actions : List FileAction) : List Place :=
  (actions.filterMap FileAction.written?).map t.placeOf

theorem writtenPlaces_append (t : FileTree) (before after : List FileAction) :
    t.writtenPlaces (before ++ after) = t.writtenPlaces before ++ t.writtenPlaces after := by
  rw [writtenPlaces, List.filterMap_append, List.map_append]
  rfl

theorem writtenPlaces_of_current (h : t'.current = t.current) (actions : List FileAction) :
    t'.writtenPlaces actions = t.writtenPlaces actions :=
  List.map_congr_left fun path _ => placeOf_of_current h path

theorem follows_of_apply (h : action.apply t = .ok t') : t.Follows t' (t.writtenPlaces [action]) := by
  cases action with
  | makeFolders path =>
    obtain ⟨-, -, rfl⟩ := makeFolders_eq_ok_iff.mp h
    exact ⟨current_addFolders t _, fun place hplace => isFolder_addFolders_iff.mpr (.inl hplace),
      fun place _ => contents?_addFolders t _ place⟩
  | write path text =>
    obtain ⟨-, rfl⟩ := write_eq_ok_iff.mp h
    refine ⟨rfl, fun place hplace => hplace, fun place hplace => contents?_put_of_ne ?_ _⟩
    exact fun heq => hplace (List.mem_singleton.mpr heq)

section Perform

variable {rest : List FileAction}

theorem perform_of_apply (h : action.apply t = .ok t') (rest : List FileAction) :
    t.perform (action :: rest) = { t'.perform rest with done := action :: (t'.perform rest).done } := by
  rw [perform, h]

theorem perform_of_error {fault : Fault} (h : action.apply t = .error fault) (rest : List FileAction) :
    t.perform (action :: rest) = ⟨t, [], some fault⟩ := by
  rw [perform, h]

theorem fault_perform_cons_iff :
    (t.perform (action :: rest)).fault = none ↔
      ∃ next, action.apply t = .ok next ∧ (next.perform rest).fault = none := by
  cases h : action.apply t with
  | ok next => simp [perform_of_apply h]
  | error fault => simp [perform_of_error h]

theorem follows_perform (t : FileTree) (actions : List FileAction) :
    t.Follows (t.perform actions).tree (t.writtenPlaces actions) := by
  induction actions generalizing t with
  | nil => exact .refl t _
  | cons action rest ih =>
    cases h : action.apply t with
    | error fault =>
      rw [perform_of_error h]
      exact .refl t _
    | ok next =>
      have hfirst := follows_of_apply h
      have hrest := ih next
      have hplaces : t.writtenPlaces (action :: rest) = t.writtenPlaces [action] ++ t.writtenPlaces rest :=
        writtenPlaces_append t [action] rest
      rw [writtenPlaces_of_current hfirst.current] at hrest
      rw [perform_of_apply h, hplaces]
      exact hfirst.trans hrest

theorem perform_append_of_none {before : List FileAction} (h : (t.perform before).fault = none)
    (after : List FileAction) :
    t.perform (before ++ after) =
      { (t.perform before).tree.perform after with
        done := (t.perform before).done ++ ((t.perform before).tree.perform after).done } := by
  induction before generalizing t with
  | nil => rfl
  | cons action rest ih =>
    obtain ⟨next, hnext, hrest⟩ := fault_perform_cons_iff.mp h
    rw [List.cons_append, perform_of_apply hnext, perform_of_apply hnext, ih hrest, List.cons_append]

theorem perform_append_of_some {before : List FileAction} {fault : Fault} (h : (t.perform before).fault = some fault)
    (after : List FileAction) : t.perform (before ++ after) = t.perform before := by
  induction before generalizing t with
  | nil => cases h
  | cons action rest ih =>
    cases hnext : action.apply t with
    | error fault' => rw [List.cons_append, perform_of_error hnext, perform_of_error hnext]
    | ok next =>
      rw [perform_of_apply hnext] at h
      rw [List.cons_append, perform_of_apply hnext, perform_of_apply hnext, ih h]

theorem fault_perform_append_iff {before after : List FileAction} :
    (t.perform (before ++ after)).fault = none ↔
      (t.perform before).fault = none ∧ ((t.perform before).tree.perform after).fault = none := by
  cases h : (t.perform before).fault with
  | none => simp [perform_append_of_none h]
  | some fault => simp [perform_append_of_some h, h]

/-- A file that has been written is read from its path as long as nothing else is written to its place: the folders on
the way stay. -/
theorem Follows.read?_of_put {path : String} {contents : FileContents} {written : List Place}
    (h : (t.put (t.placeOf path) contents).Follows t' written) (hwritable : t.Writable path)
    (hplace : t.placeOf path ∉ written) : t'.read? path = some contents := by
  have hcurrent : t'.current = t.current := h.current
  have hfolders : t'.AllFolders (t.startOf path) (components path).dropLast := hwritable.folders.mono h.folders
  rw [← startOf_of_current hcurrent] at hfolders
  rw [read?_of_allFolders hfolders, placeOf_of_current hcurrent, h.contents _ hplace]
  exact contents?_put_self t _ contents

theorem read?_perform (before after : List FileAction) {path text : String}
    (h : (t.perform (before ++ .write path text :: after)).fault = none)
    (hlast : t.placeOf path ∉ t.writtenPlaces after) :
    (t.perform (before ++ .write path text :: after)).tree.read? path = some (.text text) := by
  obtain ⟨hbefore, hafter⟩ := fault_perform_append_iff.mp h
  obtain ⟨written, hwrite, -⟩ := fault_perform_cons_iff.mp hafter
  rw [perform_append_of_none hbefore, perform_of_apply hwrite]
  have hcurrent := (follows_perform t before).current
  obtain ⟨hwritable, rfl⟩ := write_eq_ok_iff.mp hwrite
  refine (follows_perform _ after).read?_of_put hwritable ?_
  rwa [writtenPlaces_of_current (follows_of_apply hwrite).current, writtenPlaces_of_current hcurrent,
    placeOf_of_current hcurrent]

end Perform

end EditorTheme.FileTree
