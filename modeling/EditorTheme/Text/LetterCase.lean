/-!
Lower case, as far as the comparison with an ASCII word needs it.
-/

set_option autoImplicit false
set_option relaxedAutoImplicit false

namespace EditorTheme.Text

/-- The lower case of a character whose lower case is an ASCII letter: the ASCII capitals and the Kelvin
sign. Every other character is kept; the lower case of none of them is an ASCII letter alone. -/
def lowerChar (c : Char) : Char := if c = '\u212A' then 'k' else c.toLower

def lower (cs : List Char) : List Char := cs.map lowerChar

end EditorTheme.Text
