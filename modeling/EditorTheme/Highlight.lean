import EditorTheme.Color
import EditorTheme.Style
import EditorTheme.Text.Blank

/-!
Highlight groups. A highlight line is a link to another group or up to four fields: foreground, background,
styles and special color. A hyphen unsets a field, and so does leaving it out at the end.
-/

set_option autoImplicit false
set_option relaxedAutoImplicit false

namespace EditorTheme

variable {α : Type}

/-- How text of a group looks; a color may be unset. -/
structure Styling (α : Type) where
  foreground : Option (Color α)
  background : Option (Color α)
  styles : StyleSet
  special : Option (Color α)

inductive Highlight (α : Type) where
  | link (target : String)
  | styled (styling : Styling α)

/-- The color that a field names for a group, or none for a hyphen. -/
def namedColor (colors : Table (Color α)) (group name : String) :
    Except (ThemeError α) (Option (Color α)) :=
  if name = "-" then .ok none
  else match colors.find? name with
    | some c => .ok (some c)
    | none => .error (.unknownColor name group)

namespace Highlight

/-- The text after the mark of a link, if a line begins with one. -/
def afterLinkMark? : List Char → Option (List Char)
  | 'l' :: 'i' :: 'n' :: 'k' :: ':' :: rest => some rest
  | _ => none

/-- The four fields of a line; fields left out at the end are hyphens. -/
def fields? (line : List Char) : Option (String × String × String × String) :=
  match (Text.words line).map String.ofList with
  | [a] => some (a, "-", "-", "-")
  | [a, b] => some (a, b, "-", "-")
  | [a, b, c] => some (a, b, c, "-")
  | [a, b, c, d] => some (a, b, c, d)
  | _ => none

/-- Reads the value of a highlight group, given the colors of the theme. -/
def read (colors : Table (Color α)) (group value : String) : Except (ThemeError α) (Highlight α) :=
  let line := Text.trim value.toList
  match afterLinkMark? line with
  | some rest =>
    match Text.words rest with
    | [target] => .ok (.link (String.ofList target))
    | _ => .error (.invalidHighlight group value)
  | none =>
    match fields? line with
    | none => .error (.invalidHighlight group value)
    | some (foreground, background, styles, special) => do
      let foreground ← namedColor colors group foreground
      let background ← namedColor colors group background
      let styles ← StyleSet.read styles group
      let special ← namedColor colors group special
      return .styled ⟨foreground, background, styles, special⟩

def readAll (colors : Table (Color α)) (entries : List (String × String)) :
    Except (ThemeError α) (List (String × Highlight α)) :=
  entries.mapM fun entry => do return (entry.1, ← read colors entry.1 entry.2)

end Highlight

end EditorTheme
