import EditorTheme.FileTree
import EditorTheme.Lua.Colorscheme
import EditorTheme.Theme.PaletteJson

/-!
Writing a theme into a file tree. What is to be made and written is listed first and then done in order, up to
the first fault.
-/

set_option autoImplicit false
set_option relaxedAutoImplicit false

namespace EditorTheme

/-- One change of a file tree. -/
inductive FileAction where
  | makeFolders (path : String)
  | write (path text : String)
  deriving Repr, DecidableEq

def FileAction.apply (t : FileTree) : FileAction → Except FileTree.Fault FileTree
  | .makeFolders path => t.makeFolders path
  | .write path text => t.write path text

def FileAction.written? : FileAction → Option String
  | .makeFolders _ => none
  | .write path _ => some path

/-- Where a list of actions has led to. -/
structure Performed where
  tree : FileTree
  /-- The actions that were done. -/
  done : List FileAction
  fault : Option FileTree.Fault

/-- Does actions in order, up to the first fault. -/
def FileTree.perform (t : FileTree) : List FileAction → Performed
  | [] => ⟨t, [], none⟩
  | action :: rest =>
    match action.apply t with
    | .ok next =>
      let p := next.perform rest
      { p with done := action :: p.done }
    | .error fault => ⟨t, [], some fault⟩

namespace Export

structure Paths where
  moduleFolder : String
  loaderFolder : String
  module : String
  loader : String
  deriving Repr, DecidableEq

def paths (name folder : String) : Paths :=
  let moduleFolder := FilePath.join (FilePath.join folder "lua") name
  let loaderFolder := FilePath.join folder "colors"
  { moduleFolder
    loaderFolder
    module := FilePath.join moduleFolder "init.lua"
    loader := FilePath.join loaderFolder (name ++ ".lua") }

/-- Writes the Lua files of a theme below a folder. -/
def luaActions {α : Type} [Scalar α] (t : Theme α) (folder : String) : List FileAction :=
  let p := paths t.name folder
  [.makeFolders p.moduleFolder, .makeFolders p.loaderFolder, .write p.module (Lua.moduleSource t),
    .write p.loader (Lua.loaderSource t)]

/-- Writes the palette of a theme to a path, in a folder that is made if need be. -/
def jsonActions (t : Theme Float) (path : String) : List FileAction :=
  let folder := FilePath.folder path
  (if folder.isEmpty then [] else [.makeFolders folder]) ++ [.write path t.paletteJson]

end Export

end EditorTheme
