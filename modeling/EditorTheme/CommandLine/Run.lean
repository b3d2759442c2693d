import EditorTheme.CommandLine.Arguments
import EditorTheme.CommandLine.Export
import EditorTheme.Theme.File
import EditorTheme.Theme.Notes
import EditorTheme.Theme.Preview

/-!
A run of the command on a file tree. A theme is compiled as a whole before anything is written, so that a
fault of the theme leaves the tree as it was.
-/

set_option autoImplicit false
set_option relaxedAutoImplicit false

namespace EditorTheme.CommandLine

/-- What breaks a run off without an exit code. -/
inductive Interruption where
  | hueTooLarge
  | notUtf8
  | integerTooLong
  | file (fault : FileTree.Fault)
  deriving Repr, DecidableEq

/-- How a run ends. -/
inductive Ending where
  | exit (code : Nat)
  | interrupted (cause : Interruption)
  deriving Repr, DecidableEq

/-- What a run shows: text, or the preview of the theme. -/
inductive Shown where
  | text (s : String)
  | preview (p : Preview)
  deriving Repr, DecidableEq

structure Report where
  ending : Ending
  /-- What was shown, in order. -/
  shown : List Shown
  errors : String
  tree : FileTree

def Report.output (r : Report) : String :=
  String.join (r.shown.map fun
    | .text s => s
    | .preview _ => "")

def Report.preview? (r : Report) : Option Preview :=
  r.shown.findSome? fun
    | .text _ => none
    | .preview p => some p

def noteLines (r : Request) (notes : List Note) : String :=
  if r.verbose then String.join (notes.map Note.line) else ""

def startLine (r : Request) : String := "Compiling: " ++ r.filename ++ "\n"

def countLine (t : Theme Float) : String :=
  "Resolved " ++ toString t.colors.size ++ " colors, " ++ toString t.highlights.length ++ " highlights, " ++
    toString t.globals.length ++ " globals\n"

def rule : String := String.ofList (List.replicate 60 '=') ++ "\n"

/-- The closing words: the files that were written and how to use the theme. -/
def closingText (t : Theme Float) (written : List String) : String :=
  "\n" ++ rule ++ "Exported:\n" ++ String.join (written.map fun path => "  - " ++ path ++ "\n") ++
    "\nUse it with :colorscheme " ++ t.name ++ " (" ++ t.background.name ++ " background)\n" ++ rule

/-- The folder that the theme is written below; an empty one counts as not given. -/
def outputFolder (tree : FileTree) (r : Request) : String :=
  match r.output with
  | some folder => if folder.isEmpty then tree.currentPath else folder
  | none => tree.currentPath

/-- The path of the palette; an empty one counts as not given. -/
def palettePath? (r : Request) : Option String := r.paletteJson.filter fun path => !path.isEmpty

def interruptionOf : Failure Float → Option Interruption
  | .theme _ => none
  | .hueTooLarge _ _ => some .hueTooLarge
  | .notUtf8 => some .notUtf8
  | .integerTooLong => some .integerTooLong

def failed (tree : FileTree) (r : Request) (notes : List Note) (failure : Failure Float) : Report :=
  let errors := match failure with
    | .theme e => noteLines r notes ++ "error: " ++ e.message ++ "\n"
    | _ => noteLines r notes
  { ending := match interruptionOf failure with
      | some cause => .interrupted cause
      | none => .exit 1
    shown := [.text (startLine r)]
    errors
    tree }

def exportTheme (tree : FileTree) (r : Request) (notes : List Note) (t : Theme Float) : Report :=
  let folder := outputFolder tree r
  let lua := tree.perform (Export.luaActions t folder)
  let notes := notes ++ (lua.done.filterMap FileAction.written?).map .wrote
  let all := match lua.fault, palettePath? r with
    | none, some path =>
      let json := lua.tree.perform (Export.jsonActions t path)
      { json with done := lua.done ++ json.done }
    | _, _ => lua
  let shown := .text (startLine r ++ countLine t) :: if r.preview then [.preview t.preview] else []
  { ending := match all.fault with
      | some fault => .interrupted (.file fault)
      | none => .exit 0
    shown := match all.fault with
      | some _ => shown
      | none => shown ++ [.text (closingText t (all.done.filterMap FileAction.written?))]
    errors := noteLines r notes
    tree := all.tree }

def runRequest (tree : FileTree) (r : Request) : Report :=
  match ThemeFile.load tree r.filename with
  | .error failure => failed tree r [] failure
  | .ok document =>
    match Theme.compile document with
    | .error failure => failed tree r (Theme.notes Float document) failure
    | .ok t => exportTheme tree r (Theme.notes Float document) t

def run (tree : FileTree) (arguments : List String) : Report :=
  match Request.read arguments with
  | .ok r => runRequest tree r
  | .error .help => { ending := .exit 0, shown := [.text help], errors := "", tree }
  | .error (.usage e) =>
    { ending := .exit 2
      shown := []
      errors := usage ++ "colorscheme-compiler: error: " ++ e.message ++ "\n"
      tree }

end EditorTheme.CommandLine
