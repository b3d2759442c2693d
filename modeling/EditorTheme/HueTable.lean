import EditorTheme.Color

/-!
Named hues. A table is built from pairs of names and values: names must differ, values must be finite numbers,
and every hue is wrapped.
-/

set_option autoImplicit false
set_option relaxedAutoImplicit false

namespace EditorTheme

variable {α : Type} [Scalar α]

abbrev HueTable (α : Type) := Table α

namespace HueTable

/-- The number that a named hue is given as. Truth values are no numbers. -/
def readHue (name : String) : Value → Except (Failure α) α
  | .int n =>
    match Scalar.ofInt? n with
    | some x => .ok x
    | none => .error (.hueTooLarge name n)
  | .number x =>
    if x.isFinite then .ok (Scalar.ofDouble x)
    else .error (.theme (.invalidEntry "hues" (some name) (.number x)))
  | v => .error (.showing v (.invalidEntry "hues" (some name)))

/-- Adds a named hue; a repeated name is refused before its value is looked at. -/
def add (t : HueTable α) (name : String) (value : Value) : Except (Failure α) (HueTable α) :=
  if t.contains name then .error (.theme (.duplicateHue name))
  else do return t.insert name (wrapHue (← readHue name value))

def ofPairs (pairs : List (String × Value)) : Except (Failure α) (HueTable α) :=
  pairs.foldlM (fun t pair => add t pair.1 pair.2) Table.empty

omit [Scalar α] in
def lookup (t : HueTable α) (name : String) : Except (ThemeError α) α :=
  match t.find? name with
  | some hue => .ok hue
  | none => .error (.unknownHue name)

end HueTable

end EditorTheme
