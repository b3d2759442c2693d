import EditorTheme.Lua.Colorscheme
import EditorTheme.Proofs.Lua.Quoted
import EditorTheme.Proofs.Text.Scanning

/-!
The module that a loader asks for. A name without backslashes, quotes and line feeds is quoted as it is; Lua reads it as
the module, and looks for the module where the name leads when its points are slashes.
-/

set_option autoImplicit false
set_option relaxedAutoImplicit false

namespace EditorTheme.Lua

open EditorTheme.Text

/-- The module that a file asks for if all it does is to load a module and call its `init`. -/
def requiredModule? (source : List Char) : Option (List Char) := do
  let (module, rest) ← readString? isLineBreak (← after? "require(" source)
  if rest = ").init()\n".toList then some module else none

/-- The path below a folder of modules where the source of a module is looked for: the points of its name are
slashes. -/
def modulePath (module : String) : String :=
  "lua/" ++ String.ofList (module.toList.map fun c => if c = '.' then '/' else c) ++ "/init.lua"

theorem modulePath_eq {module : String} (h : '.' ∉ module.toList) :
    modulePath module = "lua/" ++ module ++ "/init.lua" := by
  have hsame : (module.toList.map fun c => if c = '.' then '/' else c) = module.toList := by
    refine (List.map_congr_left fun c hc => ?_).trans (List.map_id _)
    have hne : c ≠ '.' := fun heq => h (heq ▸ hc)
    exact if_neg hne
  rw [modulePath, hsame, String.ofList_toList]

theorem quoted_eq {s : String} (hslash : '\\' ∉ s.toList) (hquote : '"' ∉ s.toList) (hfeed : '\n' ∉ s.toList) :
    quoted s = "\"" ++ s ++ "\"" := by
  have hsame : s.toList.flatMap escapeChar = s.toList := by
    refine (List.flatMap_congr fun c hc => ?_).trans (List.flatMap_singleton' _)
    exact escapeChar_of_ne (fun heq => hslash (heq ▸ hc)) (fun heq => hquote (heq ▸ hc)) fun heq => hfeed (heq ▸ hc)
  rw [← String.toList_inj, toList_quoted, quotedChars, hsame]
  simp

theorem requiredModule?_loaderSource {α : Type} (t : Theme α) (hreturn : '\r' ∉ t.name.toList) :
    requiredModule? (loaderSource t).toList = some t.name.toList := by
  have hsource : (loaderSource t).toList =
      "require(".toList ++ (quotedChars t.name.toList ++ ").init()\n".toList) := by
    simp [loaderSource, toList_quoted]
  have hread : readString? isLineBreak (quotedChars t.name.toList ++ ").init()\n".toList) =
      some (t.name.toList, ").init()\n".toList) := by
    rw [readString?_quotedChars, any_isStray_isLineBreak, if_neg (by simpa using hreturn)]
  unfold requiredModule?
  rw [hsource, after?_append, Option.bind_eq_bind, Option.bind_some, hread, Option.bind_eq_bind, Option.bind_some]
  exact if_pos rfl

end EditorTheme.Lua
