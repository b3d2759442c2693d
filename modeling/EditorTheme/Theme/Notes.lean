import EditorTheme.Theme.Compilation

/-!
Notes on the progress of a compilation. Each stage that is passed leaves one; a fault ends them.
-/

set_option autoImplicit false
set_option relaxedAutoImplicit false

namespace EditorTheme

inductive Note where
  | resolving (names : List String)
  | readHighlights (count : Nat)
  | readGlobals (count : Nat)
  | compiled (name : String) (hues colors highlights globals : Nat)
  | wrote (path : String)
  deriving Repr, DecidableEq

def Note.source : Note → String
  | .resolving _ => "colorscheme_compiler.palette.resolver"
  | .readHighlights _ => "colorscheme_compiler.highlight"
  | .readGlobals _ => "colorscheme_compiler.highlight"
  | .compiled _ _ _ _ _ => "colorscheme_compiler.theme"
  | .wrote _ => "colorscheme_compiler.export.lua_export"

def Note.text : Note → String
  | .resolving names =>
    "Resolving " ++ toString names.length ++ " colors in order: " ++ ", ".intercalate names
  | .readHighlights count => "Parsed " ++ toString count ++ " highlight groups"
  | .readGlobals count => "Resolved " ++ toString count ++ " globals"
  | .compiled name hues colors highlights globals =>
    "Compiled theme " ++ Text.quoted name ++ ": " ++ toString hues ++ " hues, " ++ toString colors ++
      " colors, " ++ toString highlights ++ " highlights, " ++ toString globals ++ " globals"
  | .wrote path => "Wrote " ++ path

def Note.line (n : Note) : String := n.source ++ ": " ++ n.text ++ "\n"

namespace Theme

variable {α : Type} [Scalar α]

def notesAfterColors (d : ThemeDocument) (hues : HueTable α) (colors : Table (Color α)) : List Note :=
  match Highlight.readAll colors d.highlights with
  | .error _ => []
  | .ok highlights =>
    .readHighlights highlights.length ::
      match GlobalColor.readAll colors hues d.globals with
      | .error _ => []
      | .ok globals =>
        [.readGlobals globals.length,
         .compiled d.name hues.size colors.size highlights.length globals.length]

def notesAfterHues (d : ThemeDocument) (hues : HueTable α) : List Note :=
  match Palette.parse d.colors with
  | .error _ => []
  | .ok p =>
    match p.checkedOrder hues with
    | .error _ => []
    | .ok order =>
      .resolving order ::
        match p.evaluate hues with
        | .error _ => []
        | .ok colors => notesAfterColors d hues colors

def notes (α : Type) [Scalar α] (d : ThemeDocument) : List Note :=
  match (Background.read d.background : Except (ThemeError α) Background), HueTable.ofPairs d.hues with
  | .ok _, .ok hues => notesAfterHues (α := α) d hues
  | _, _ => []

end Theme

end EditorTheme
