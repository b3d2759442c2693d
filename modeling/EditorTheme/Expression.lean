import EditorTheme.Color.Conversion
import EditorTheme.HueTable

/-!
Color expressions and their meaning. An expression names the colors and hues that it uses; its color depends
on nothing else.
-/

set_option autoImplicit false
set_option relaxedAutoImplicit false

namespace EditorTheme

variable {α : Type}

/-- The hue of an `hsl` expression: a number of degrees or a named hue. -/
inductive HueTerm (α : Type) where
  | degrees (hue : α)
  | named (name : String)

inductive Expression (α : Type) where
  | literal (color : Rgb)
  | hsl (hue : HueTerm α) (saturation lightness : α)
  /-- The color `base` with saturation and lightness shifted. -/
  | adjust (base : String) (saturation lightness : α)
  | mix (first second : String) (weight : α)
  | alias (name : String)

def HueTerm.eval (hues : HueTable α) : HueTerm α → Except (ThemeError α) α
  | .degrees hue => .ok hue
  | .named name => hues.lookup name

namespace Expression

/-- The colors that an expression refers to, in the order of its arguments. -/
def references : Expression α → List String
  | .literal _ => []
  | .hsl _ _ _ => []
  | .adjust base _ _ => [base]
  | .mix first second _ => [first, second]
  | .alias name => [name]

def hueReferences : Expression α → List String
  | .hsl (.named name) _ _ => [name]
  | _ => []

def lookupColor (colors : Table (Color α)) (name : String) : Except (ThemeError α) (Color α) :=
  match colors.find? name with
  | some c => .ok c
  | none => .error (.unresolved name)

/-- The color of an expression, given the named hues and the colors computed so far. -/
def eval [Scalar α] (hues : HueTable α) (colors : Table (Color α)) :
    Expression α → Except (ThemeError α) (Color α)
  | .literal c => Color.ofRgb c
  | .hsl hue s l => do Color.make (← hue.eval hues) s l
  | .adjust base s l => do return (← lookupColor colors base).adjust s l
  | .mix first second weight => do
    let a ← lookupColor colors first
    let b ← lookupColor colors second
    Color.mix a b weight
  | .alias name => lookupColor colors name

end Expression

end EditorTheme
