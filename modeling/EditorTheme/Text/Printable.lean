import EditorTheme.Text.PrintableRanges
import EditorTheme.Text.Word

/-!
Characters that show when printed. Those that do not are written as escapes in quoted texts.
-/

set_option autoImplicit false
set_option relaxedAutoImplicit false

namespace EditorTheme.Text

/-- The space is the only separator that shows. -/
def isPrintable (c : Char) : Bool :=
  if c.toNat < 0x80 then 0x20 ≤ c.toNat && c.toNat ≤ 0x7E else inRanges printableRanges c.toNat

end EditorTheme.Text
