import EditorTheme.GlobalColor
import EditorTheme.Palette.Resolution
import EditorTheme.Theme
import EditorTheme.Theme.Document

/-!
From a document to a theme: background, hues, colors, highlights and globals are read in turn, and the first
fault ends the compilation.
-/

set_option autoImplicit false
set_option relaxedAutoImplicit false

namespace EditorTheme.Theme

variable {α : Type} [Scalar α]

def compile (d : ThemeDocument) : Except (Failure α) (Theme α) := do
  let background ← fault (Background.read d.background)
  let hues ← HueTable.ofPairs d.hues
  let colors ← fault (Palette.resolve d.colors hues)
  let highlights ← fault (Highlight.readAll colors d.highlights)
  let globals ← fault (GlobalColor.readAll colors hues d.globals)
  return { name := d.name, background, colors, highlights, globals }

def ofData (data : List (String × Value)) : Except (Failure α) (Theme α) := do
  compile (← ThemeDocument.ofData data)

end EditorTheme.Theme
