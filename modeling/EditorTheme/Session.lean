import EditorTheme.GlobalColor
import EditorTheme.Lua.Colorscheme
import EditorTheme.Theme.Compilation
import EditorTheme.Theme.PaletteJson
import EditorTheme.Theme.Preview

/-!
A theme that is built step by step. Each step changes the session or asks it something; a step that fails
leaves the session as it was.
-/

set_option autoImplicit false
set_option relaxedAutoImplicit false

namespace EditorTheme

structure Session where
  hues : HueTable Float
  colors : Table (Color Float)
  highlights : List (String × Highlight Float)
  globals : List (String × Option (Color Float))
  background : Background

namespace Session

inductive Step where
  | setHues (entries : List (String × Value))
  | lookupHue (name : String)
  | setColor (name text : String)
  | addHighlight (group value : String)
  | addGlobal (name value : String)
  | setBackground (value : Value)
  | theme
  | lua
  | json
  | preview

inductive Answer where
  | count (n : Nat)
  | hue (x : Float)
  | color (c : Option (Color Float))
  | highlight (h : Highlight Float)
  | background (b : Background)
  | theme (t : Theme Float)
  | lua (moduleSource loaderSource : String)
  | json (text : String)
  | preview (p : Preview)

def start : Session where
  hues := Table.empty
  colors := Table.empty
  highlights := []
  globals := []
  background := .dark

def toTheme (s : Session) : Theme Float where
  name := "session"
  background := s.background
  colors := s.colors
  highlights := s.highlights
  globals := s.globals

def step (s : Session) : Step → Except (Failure Float) (Session × Answer)
  | .setHues entries => do
    let hues ← HueTable.ofPairs entries
    return ({ s with hues }, .count hues.size)
  | .lookupHue name => Theme.fault do return (s, .hue (← s.hues.lookup name))
  | .setColor name text => Theme.fault do
    let c ← (← Expression.read text).eval s.hues s.colors
    return ({ s with colors := s.colors.insert name c }, .color (some c))
  | .addHighlight group value => Theme.fault do
    let h ← Highlight.read s.colors group value
    return ({ s with highlights := s.highlights ++ [(group, h)] }, .highlight h)
  | .addGlobal name value => Theme.fault do
    let c ← GlobalColor.read s.colors s.hues name value
    return ({ s with globals := s.globals ++ [(name, c)] }, .color c)
  | .setBackground value => do
    let background ← Background.ofValue value
    return ({ s with background }, .background background)
  | .theme => return (s, .theme s.toTheme)
  | .lua => return (s, .lua (Lua.moduleSource s.toTheme) (Lua.loaderSource s.toTheme))
  | .json => return (s, .json s.toTheme.paletteJson)
  | .preview => return (s, .preview s.toTheme.preview)

def run (s : Session) : List Step → List (Except (Failure Float) Answer)
  | [] => []
  | first :: rest =>
    match step s first with
    | .ok (next, answer) => .ok answer :: run next rest
    | .error failure => .error failure :: run s rest

end Session

end EditorTheme
