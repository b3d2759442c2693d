/-!
Paths as they are written: components between slashes. Joining and taking the folder of a path work on the
text alone; what a path leads to is a matter of the file tree.
-/

set_option autoImplicit false
set_option relaxedAutoImplicit false

namespace EditorTheme.FilePath

/-- The components of a path; neighbouring slashes have an empty one between them. -/
def components (path : String) : List String := (path.toList.splitOn '/').map String.ofList

def isAbsolute (path : String) : Bool := path.toList.head? = some '/'

/-- A path behind a folder, unless the path is absolute and stands alone; no slash is added behind one that is there, or
behind nothing. -/
def join (folder path : String) : String :=
  if isAbsolute path then path
  else if folder.isEmpty || folder.toList.getLast? = some '/' then folder ++ path
  else folder ++ "/" ++ path

/-- What stands before the last component of a path, without the slashes at its end unless it is nothing
else. -/
def folder (path : String) : String :=
  let upToSlash := (path.toList.reverse.dropWhile (· ≠ '/'))
  let trimmed := upToSlash.dropWhile (· = '/')
  String.ofList (if trimmed.isEmpty then upToSlash.reverse else trimmed.reverse)

/-- The slashes that an absolute path begins with: two are kept, and any other number counts as one. -/
def root (path : String) : String :=
  match (path.toList.takeWhile (· = '/')).length with
  | 0 => ""
  | 2 => "//"
  | _ => "/"

/-- A path without empty components and components that stay in place; the path that stays is a point. -/
def normalized (path : String) : String :=
  let kept := (components path).filter fun c => c ≠ "" ∧ c ≠ "."
  let text := root path ++ "/".intercalate kept
  if text.isEmpty then "." else text

end EditorTheme.FilePath
