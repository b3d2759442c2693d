import EditorTheme.Value

/-!
What can be wrong with a theme: one constructor per cause, and the wording of all causes in one place. A fault that shows
a value carries the value's text, and a value without a text ends the compilation without a fault of the theme.
-/

set_option autoImplicit false
set_option relaxedAutoImplicit false

namespace EditorTheme

inductive SyntaxFault where
  | notText
  | blank
  | notExpression
  | unknownFunction (name : String)
  | argumentCount (function : String) (expected actual : Nat)
  | emptyArgument
  | notNumber (text : String)
  | numberTooLarge (text : String)
  | notName (text : String)
  | hueNotAllowed (text : String)
  | badHueName (text : String)
  deriving Repr, DecidableEq

def SyntaxFault.reason : SyntaxFault → String
  | .notText => "expected a string"
  | .blank => "empty expression"
  | .notExpression => "not a hex color, function call or color name"
  | .unknownFunction name => "unknown function " ++ Text.quoted name
  | .argumentCount function expected actual =>
    function ++ "() takes " ++ toString expected ++ " arguments, got " ++ toString actual
  | .emptyArgument => "empty argument"
  | .notNumber text => "expected a number, got " ++ Text.quoted text
  | .numberTooLarge text => "number out of range: " ++ Text.quoted text
  | .notName text => "expected a color name, got " ++ Text.quoted text
  | .hueNotAllowed text =>
    "hue reference " ++ Text.quoted text ++ " is only allowed as the hue of hsl()"
  | .badHueName text => "invalid hue reference " ++ Text.quoted text

inductive FileFault where
  | notFound
  | notToml
  deriving Repr, DecidableEq

def FileFault.reason : FileFault → String
  | .notFound => "file not found"
  | .notToml => "invalid TOML"

/-- The faults of a theme. Components of colors are numbers of type `α`. -/
inductive ThemeError (α : Type) where
  | invalidHex (literal : Described)
  | badExpression (text : Described) (fault : SyntaxFault)
  | notFinite (hue saturation lightness : α)
  | unknownHue (name : String)
  /-- The color `entry` refers to a name that no color has. -/
  | unknownReference (name entry : String)
  | unknownColor (name group : String)
  /-- The names of a cycle of references; the first is repeated at the end. -/
  | cycle (names : List String)
  /-- A color was computed before one of the colors it refers to. -/
  | unresolved (name : String)
  | unknownStyle (letter : Char) (group : String)
  | invalidHighlight (group value : String)
  | invalidBackground (value : Described)
  /-- A section, or with a name an entry of it, has the wrong shape. -/
  | invalidEntry (sectionName : String) (name : Option String) (value : Described)
  | duplicateHue (name : String)
  | unreadable (path : String) (fault : FileFault)

namespace ThemeError

def messageWith {α : Type} (number : α → String) : ThemeError α → String
  | .invalidHex literal => "Invalid hex color " ++ literal.words ++ " (expected #RRGGBB)"
  | .badExpression text fault =>
    "Cannot parse color expression " ++ text.words ++ ": " ++ fault.reason
  | .notFinite h s l =>
    "Color components are not finite numbers: hsl(" ++ number h ++ ", " ++ number s ++ ", " ++
      number l ++ ")"
  | .unknownHue name => "Referenced hue " ++ Text.quoted name ++ " is not present in hues"
  | .unknownReference name entry =>
    "Referenced color " ++ Text.quoted name ++ " is not present in colors" ++
      (if entry.isEmpty then "" else " (in color " ++ Text.quoted entry ++ ")")
  | .unknownColor name group =>
    "Color " ++ Text.quoted name ++ " used by " ++ Text.quoted group ++ " is not present in colors"
  | .cycle names => "Cyclic color reference: " ++ " -> ".intercalate names
  | .unresolved name => "Color " ++ Text.quoted name ++ " has not been resolved yet"
  | .unknownStyle letter group =>
    "Unknown style option " ++ Text.quoted (String.ofList [letter]) ++ " in highlight " ++ Text.quoted group
  | .invalidHighlight group value =>
    "Invalid highlight " ++ Text.quoted group ++ ": " ++ Text.quoted value
  | .invalidBackground value =>
    "Invalid background " ++ value.words ++ " (expected 'dark' or 'light')"
  | .invalidEntry sectionName none value =>
    "Missing or invalid value for " ++ Text.quoted sectionName ++ ": " ++ value.words
  | .invalidEntry sectionName (some name) value =>
    "Invalid value for " ++ sectionName ++ "." ++ name ++ ": " ++ value.words
  | .duplicateHue name => "Hue " ++ Text.quoted name ++ " is defined more than once"
  | .unreadable path fault => "Cannot read theme file " ++ Text.quoted path ++ ": " ++ fault.reason

def message (e : ThemeError Float) : String := e.messageWith Decimal.text

end ThemeError

/-- What ends a compilation: a fault of the theme, or something that no theme error describes. -/
inductive Failure (α : Type) where
  | theme (error : ThemeError α)
  /-- An integer hue beyond the largest number. -/
  | hueTooLarge (name : String) (value : Int)
  /-- The theme file is not UTF-8. -/
  | notUtf8
  /-- An integer to be read or to be written has too many digits. -/
  | integerTooLong

namespace Failure

variable {α : Type}

/-- The fault that shows a value, if the value has a text. -/
def showing (v : Value) (fault : Described → ThemeError α) : Failure α :=
  match Described.of? v with
  | some d => .theme (fault d)
  | none => .integerTooLong

end Failure

def Theme.fault {α β : Type} (r : Except (ThemeError α) β) : Except (Failure α) β := r.mapError .theme

end EditorTheme
