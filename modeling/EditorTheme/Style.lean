import EditorTheme.ThemeError

/-!
Styles of highlighted text. A style field is a run of letters, one for each style; order and repetition of
the letters mean nothing.
-/

set_option autoImplicit false
set_option relaxedAutoImplicit false

namespace EditorTheme

inductive StyleFlag where
  | standout
  | underline
  | undercurl
  | underdouble
  | underdotted
  | underdashed
  | strikethrough
  | italic
  | bold
  | reverse
  | nocombine
  deriving Repr, DecidableEq

namespace StyleFlag

/-- All flags in the order in which they are written. -/
def all : List StyleFlag :=
  [.standout, .underline, .undercurl, .underdouble, .underdotted, .underdashed, .strikethrough, .italic,
    .bold, .reverse, .nocombine]

def name : StyleFlag → String
  | .standout => "standout"
  | .underline => "underline"
  | .undercurl => "undercurl"
  | .underdouble => "underdouble"
  | .underdotted => "underdotted"
  | .underdashed => "underdashed"
  | .strikethrough => "strikethrough"
  | .italic => "italic"
  | .bold => "bold"
  | .reverse => "reverse"
  | .nocombine => "nocombine"

def letter : StyleFlag → Char
  | .standout => 'o'
  | .underline => 'u'
  | .undercurl => 'c'
  | .underdouble => 'd'
  | .underdotted => 't'
  | .underdashed => 'h'
  | .strikethrough => 's'
  | .italic => 'i'
  | .bold => 'b'
  | .reverse => 'r'
  | .nocombine => 'n'

def ofLetter? (c : Char) : Option StyleFlag := all.find? fun f => f.letter = c

def ofName? (name : String) : Option StyleFlag := all.find? fun f => f.name = name

end StyleFlag

structure StyleSet where
  contains : StyleFlag → Bool

namespace StyleSet

def empty : StyleSet := ⟨fun _ => false⟩

def ofList (flags : List StyleFlag) : StyleSet := ⟨fun f => flags.contains f⟩

def ofLetters (letters : List Char) : StyleSet := ⟨fun f => letters.contains f.letter⟩

def union (s t : StyleSet) : StyleSet := ⟨fun f => s.contains f || t.contains f⟩

def toList (s : StyleSet) : List StyleFlag := StyleFlag.all.filter s.contains

/-- Reads a style field: a hyphen for no flags, or a run of letters. -/
def read {α : Type} (field group : String) : Except (ThemeError α) StyleSet :=
  if field = "-" then .ok empty
  else match field.toList.find? fun c => (StyleFlag.ofLetter? c).isNone with
    | some c => .error (.unknownStyle c group)
    | none => .ok (ofLetters field.toList)

end StyleSet

end EditorTheme
