import EditorTheme.CommandLine.Run

/-!
The command. It reads the theme file that the arguments name, runs on a tree that holds this file alone, and
carries the changes of the tree out.
-/

set_option autoImplicit false
set_option relaxedAutoImplicit false

namespace EditorTheme.Main

open EditorTheme.CommandLine

def readContents? (path : String) : IO (Option FileContents) := do
  try
    let bytes ← IO.FS.readBinFile path
    return some (match String.fromUTF8? bytes with
      | some s => .text s
      | none => .binary)
  catch _ => return none

/-- A tree with the theme file of the arguments in it. -/
def treeFor (arguments : List String) : IO FileTree := do
  let here := FileTree.atFolder ((FilePath.components (← IO.currentDir).toString).filter (· ≠ ""))
  match Request.read arguments with
  | .error _ => return here
  | .ok r =>
    match ← readContents? r.filename with
    | some contents => return ((here.addFile (FilePath.normalized r.filename) contents).toOption).getD here
    | none => return here

def writeChange (place : Place) (contents : FileContents) : IO Unit := do
  let path := "/" ++ "/".intercalate place
  match contents with
  | .text s =>
    IO.FS.createDirAll (FilePath.folder path)
    IO.FS.writeFile path s
  | .binary => return ()

def cellText : Cell → String
  | .text s => s
  | .swatch s _ => s

def printPreview (p : Preview) : IO Unit := do
  IO.println p.title
  IO.println ("  ".intercalate p.columns)
  for row in p.rows do
    IO.println ("  ".intercalate (row.map cellText))

def printShown : Shown → IO Unit
  | .text s => IO.print s
  | .preview p => printPreview p

end EditorTheme.Main

open EditorTheme EditorTheme.CommandLine in
def main (arguments : List String) : IO UInt32 := do
  let tree ← Main.treeFor arguments
  let report := run tree arguments
  for (place, contents) in FileTree.changedSince tree report.tree do
    Main.writeChange place contents
  for shown in report.shown do
    Main.printShown shown
  IO.eprint report.errors
  match report.ending with
  | .exit code => return code.toUInt32
  | .interrupted _ => return 1
