import EditorTheme.FileTree
import EditorTheme.Theme.Compilation
import EditorTheme.Toml.Document

/-!
Theme files: TOML documents in a file tree.
-/

set_option autoImplicit false
set_option relaxedAutoImplicit false

namespace EditorTheme.ThemeFile

variable {α : Type}

/-- The table of values that a file holds. Errors show the path in normal form. -/
def readData (path : String) : Option FileContents → Except (Failure α) (List (String × Value))
  | none => .error (.theme (.unreadable (FilePath.normalized path) .notFound))
  | some .binary => .error .notUtf8
  | some (.text s) =>
    match Toml.parse s with
    | .ok entries => .ok entries
    | .error .malformed => .error (.theme (.unreadable (FilePath.normalized path) .notToml))
    | .error .integerTooLong => .error .integerTooLong

def load (tree : FileTree) (path : String) : Except (Failure α) ThemeDocument := do
  ThemeDocument.ofData (← readData path (tree.read? (FilePath.normalized path)))

def compile [Scalar α] (tree : FileTree) (path : String) : Except (Failure α) (Theme α) := do
  Theme.compile (← load tree path)

end EditorTheme.ThemeFile
