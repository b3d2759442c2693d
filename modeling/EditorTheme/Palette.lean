import EditorTheme.Expression.Reading

/-!
Palettes: named color expressions in the order of their declaration, and the check that everything they refer
to is declared.
-/

set_option autoImplicit false
set_option relaxedAutoImplicit false

namespace EditorTheme

variable {α : Type}

abbrev Palette (α : Type) := Table (Expression α)

namespace Palette

/-- Reads the entries in turn; a repeated name keeps its first place and takes the last expression. -/
def ofEntries {β ε : Type} (readEntry : β → Except ε (Expression α))
    (entries : List (String × β)) : Except ε (Palette α) :=
  entries.foldlM (fun t entry => do return t.insert entry.1 (← readEntry entry.2)) Table.empty

def parse [Scalar α] (entries : List (String × String)) : Except (ThemeError α) (Palette α) :=
  ofEntries Expression.read entries

def ofValues [Scalar α] (entries : List (String × Value)) : Except (Failure α) (Palette α) :=
  ofEntries Expression.ofValue entries

/-- The colors that the entry of a name refers to; none for a name that is not declared. -/
def references (p : Palette α) (name : String) : List String :=
  ((p.find? name).map Expression.references).getD []

/-- Fails with the first undeclared hue, or else the first undeclared color, of an entry. -/
def checkEntry (p : Palette α) (hues : HueTable α) (name : String) (e : Expression α) :
    Except (ThemeError α) Unit :=
  match e.hueReferences.find? fun hue => !hues.contains hue with
  | some hue => .error (.unknownHue hue)
  | none =>
    match e.references.find? fun reference => !p.contains reference with
    | some reference => .error (.unknownReference reference name)
    | none => .ok ()

/-- Fails with the first entry that refers to something undeclared. -/
def checkReferences (p : Palette α) (hues : HueTable α) : Except (ThemeError α) Unit :=
  p.entries.forM fun entry => checkEntry p hues entry.1 entry.2

end Palette

end EditorTheme
