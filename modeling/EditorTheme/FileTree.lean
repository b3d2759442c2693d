import EditorTheme.FilePath
import EditorTheme.Table

/-!
Files and folders. A place is the list of names that lead to it from the root; a path is looked up component
by component, and every component before the last must lead to a folder.
-/

set_option autoImplicit false
set_option relaxedAutoImplicit false

namespace EditorTheme

inductive FileContents where
  | text (s : String)
  | binary
  deriving Repr, DecidableEq

/-- The names from the root to a file or folder. -/
abbrev Place := List String

structure FileTree where
  files : List (Place × FileContents)
  /-- The folders besides the root. -/
  folders : List Place
  /-- The folder that relative paths start from. -/
  current : Place

namespace FileTree

inductive Fault where
  | notFound
  | notFolder
  | alreadyThere
  | isFolder
  /-- A path that holds the character NUL. -/
  | badPath
  deriving Repr, DecidableEq

def isFolder (t : FileTree) (place : Place) : Bool := place.isEmpty || t.folders.contains place

def contents? (t : FileTree) (place : Place) : Option FileContents := t.files.lookup place

def isFile (t : FileTree) (place : Place) : Bool := (t.contents? place).isSome

def currentPath (t : FileTree) : String := "/" ++ "/".intercalate t.current

def startOf (t : FileTree) (path : String) : Place := if FilePath.isAbsolute path then [] else t.current

def stays (component : String) : Bool := component = "" || component = "."

/-- Where a component leads from a folder. -/
def next (place : Place) (component : String) : Place :=
  if stays component then place else if component = ".." then place.dropLast else place ++ [component]

/-- Follows components from a place. Each starts in a folder. -/
def walk (t : FileTree) (place : Place) : List String → Except Fault Place
  | [] => .ok place
  | component :: rest =>
    if t.isFolder place then walk t (next place component) rest
    else if t.isFile place then .error .notFolder
    else .error .notFound

/-- The place of a path. -/
def locate (t : FileTree) (path : String) : Except Fault Place := t.walk (t.startOf path) (FilePath.components path)

def checkPath (path : String) : Except Fault Unit :=
  if path.toList.contains '\x00' then .error .badPath else .ok ()

def read? (t : FileTree) (path : String) : Option FileContents :=
  match t.locate path with
  | .ok place => t.contents? place
  | .error _ => none

/-- Puts contents in the place of a file, which keeps its position, or adds the file. -/
def put (t : FileTree) (place : Place) (contents : FileContents) : FileTree :=
  { t with files := insertEntry place contents t.files }

def addFolder (t : FileTree) (place : Place) : FileTree :=
  if t.isFolder place then t else { t with folders := t.folders ++ [place] }

/-- Writes the file of a path. Its folder must be there and the path must not lead to a folder. -/
def write (t : FileTree) (path text : String) : Except Fault FileTree := do
  checkPath path
  let components := FilePath.components path
  let folder ← t.walk (t.startOf path) components.dropLast
  let name := components.getLastD ""
  if t.isFile folder then throw .notFolder
  if !t.isFolder folder then throw .notFound
  if stays name || name = ".." || t.isFolder (folder ++ [name]) then throw .isFolder
  return t.put (folder ++ [name]) (.text text)

/-- Makes the folders that components lead through. A file in the way is a fault; as the last component it
stands where the folder should. -/
def makeFoldersFrom (t : FileTree) (place : Place) : List String → Except Fault FileTree
  | [] => .ok t
  | component :: rest =>
    let target := next place component
    if t.isFile target then .error (if rest.isEmpty then .alreadyThere else .notFolder)
    else makeFoldersFrom (t.addFolder target) target rest

def makeFolders (t : FileTree) (path : String) : Except Fault FileTree := do
  checkPath path
  t.makeFoldersFrom (t.startOf path) (FilePath.components path)

def addFile (t : FileTree) (path : String) (contents : FileContents) : Except Fault FileTree := do
  let components := FilePath.components path
  let withFolders ← t.makeFoldersFrom (t.startOf path) components.dropLast
  return withFolders.put (components.foldl next (t.startOf path)) contents

def atFolder (current : Place) : FileTree where
  files := []
  folders := (List.range current.length).map fun n => current.take (n + 1)
  current

/-- The files of a tree that are not the same in an earlier one. -/
def changedSince (earlier t : FileTree) : List (Place × FileContents) :=
  t.files.filter fun file => earlier.contents? file.1 ≠ some file.2

def pathBelow? (t : FileTree) (place : Place) : Option String :=
  if t.current.isPrefixOf place then some ("/".intercalate (place.drop t.current.length)) else none

/-- The files below the current folder that are not the same in an earlier tree, sorted by path. -/
def changes (earlier t : FileTree) : List (String × FileContents) :=
  let found := (changedSince earlier t).filterMap fun file => (t.pathBelow? file.1).map fun path => (path, file.2)
  found.mergeSort fun a b => a.1 ≤ b.1

end FileTree

end EditorTheme
