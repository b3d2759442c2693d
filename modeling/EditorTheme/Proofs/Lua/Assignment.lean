import EditorTheme.Lua.Colorscheme
import EditorTheme.Proofs.Color.Hexadecimal
import EditorTheme.Proofs.Lua.Quoted
import EditorTheme.Proofs.Text.Scanning

/-!
Reading the assignments to global variables. A field of `vim.g` is named by a word after a point or by a string
between brackets, and is given a string. The line of a global is read back as its name and its color unless the word
after the point is refused as a name. Lua refuses its reserved words, and of the printable ASCII names only those
are lost by it.
-/

set_option autoImplicit false
set_option relaxedAutoImplicit false

namespace EditorTheme.Lua

open EditorTheme.Text

section Reading

variable (barred : Char → Bool) (isName : List Char → Bool)

/-- Reads the name of a field: the word after a point, or the string between brackets. -/
def readField? : List Char → Option (List Char × List Char)
  | '.' :: cs =>
    if isName (cs.takeWhile (· != ' ')) then some (cs.takeWhile (· != ' '), cs.dropWhile (· != ' ')) else none
  | '[' :: cs => do
    let (name, rest) ← readString? barred cs
    return (name, ← after? "]" rest)
  | _ => none

/-- Reads a line that gives a string to a field of `vim.g`: the name of the field, and the string. -/
def readAssignment? (line : List Char) : Option (List Char × List Char) := do
  let (name, rest) ← readField? barred isName (← after? "    vim.g" line)
  let (value, rest) ← readString? barred (← after? " = " rest)
  if rest.isEmpty then some (name, value) else none

/-- Whether a reader takes the name of a global for what it is. -/
def isReadable (name : List Char) : Bool :=
  if isIdentifier name then isName name else !name.any (isStray barred)

theorem toNat_lt_of_isAsciiLetter {c : Char} (h : isAsciiLetter c = true) : c.toNat < 0x80 := by
  have hcodes : (decide (c.val ≥ 'A'.val ∧ c.val ≤ 'Z'.val) ||
      (decide (c.val ≥ 'a'.val) && decide (c.val ≤ 'z'.val))) = true := h
  simp only [Bool.or_eq_true, Bool.and_eq_true, decide_eq_true_eq, ge_iff_le, UInt32.le_iff_toNat_le] at hcodes
  have hval : c.toNat = c.val.toNat := rfl
  have hbig : 'Z'.val.toNat = 90 := rfl
  have hsmall : 'z'.val.toNat = 122 := rfl
  omega

theorem isWord_of_mem_identifier {name : List Char} (h : isIdentifier name = true) {c : Char} (hc : c ∈ name) :
    isWord c = true := by
  cases name with
  | nil => cases hc
  | cons first rest =>
    simp only [isIdentifier, Bool.and_eq_true, Bool.or_eq_true, List.all_eq_true, beq_iff_eq] at h
    obtain ⟨hfirst, hrest⟩ := h
    rcases List.mem_cons.mp hc with rfl | htail
    · rcases hfirst with hletter | rfl
      · rw [isWord, if_pos (toNat_lt_of_isAsciiLetter hletter), hletter, Bool.true_or, Bool.true_or]
      · decide
    · exact hrest c htail

def fieldChars (name : List Char) : List Char :=
  if isIdentifier name then '.' :: name else '[' :: (quotedChars name ++ [']'])

theorem readField?_fieldChars (name rest : List Char) :
    readField? barred isName (fieldChars name ++ ' ' :: rest) =
      if isReadable barred isName name then some (name, ' ' :: rest) else none := by
  unfold fieldChars isReadable
  by_cases hid : isIdentifier name = true
  · have hrun : ∀ c ∈ name, (c != ' ') = true := by
      intro c hc
      have hword := isWord_of_mem_identifier hid hc
      rw [bne_iff_ne]
      rintro rfl
      exact absurd hword (by decide)
    have hstop : ∀ c ∈ (' ' :: rest).head?, (c != ' ') = false := by simp
    rw [if_pos hid, if_pos hid, List.cons_append, readField?, takeWhile_run hrun hstop, dropWhile_run hrun hstop]
  · rw [if_neg hid, if_neg hid]
    have hclose : after? "]" (']' :: ' ' :: rest) = some (' ' :: rest) := after?_append "]" (' ' :: rest)
    rw [List.cons_append, List.append_assoc, List.singleton_append, readField?, readString?_quotedChars]
    cases name.any (isStray barred) <;> simp [hclose]

variable {α : Type} [Scalar α]

theorem toList_globalLine (name : String) (c : Option (Color α)) :
    (globalLine name c).toList =
      "    vim.g".toList ++ (fieldChars name.toList ++ (" = ".toList ++ quotedChars (colorText c).toList)) := by
  unfold globalLine globalTarget fieldChars
  split <;> simp [toList_quoted]

theorem readAssignment?_globalLine (name : String) {c : Option (Color α)}
    (hcolor : (colorText c).toList.any (isStray barred) = false) :
    readAssignment? barred isName (globalLine name c).toList =
      if isReadable barred isName name.toList then some (name.toList, (colorText c).toList) else none := by
  have hfield := readField?_fieldChars barred isName name.toList ("= ".toList ++ quotedChars (colorText c).toList)
  have hequals := after?_append " = " (quotedChars (colorText c).toList)
  have hvalue : readString? barred (quotedChars (colorText c).toList) = some ((colorText c).toList, []) := by
    have hread := readString?_quotedChars barred (colorText c).toList []
    rwa [List.append_nil, hcolor] at hread
  have hblank : " = ".toList ++ quotedChars (colorText c).toList =
      ' ' :: ("= ".toList ++ quotedChars (colorText c).toList) := rfl
  rw [hblank] at hequals
  rw [readAssignment?, toList_globalLine, hblank, after?_append]
  simp only [Option.bind_eq_bind, Option.bind_some, hfield]
  cases isReadable barred isName name.toList with
  | false => rfl
  | true => simp only [if_true, Option.bind_some, hequals, hvalue, List.isEmpty_nil]

end Reading

def reservedWords : List String :=
  ["and", "break", "do", "else", "elseif", "end", "false", "for", "function", "if", "in", "local", "nil", "not",
    "or", "repeat", "return", "then", "true", "until", "while"]

def isAsciiWord (c : Char) : Bool := isAsciiLetter c || isAsciiDigit c || c == '_'

/-- Whether a word is a name in Lua: ASCII letters, digits and underscores, no digit first, and not reserved. -/
def isLegalName : List Char → Bool
  | [] => false
  | c :: cs =>
    (isAsciiLetter c || c == '_') && cs.all isAsciiWord && !(reservedWords.map String.toList).contains (c :: cs)

def isPrintableAscii (c : Char) : Bool := 0x20 ≤ c.toNat && c.toNat ≤ 0x7E

section Legality

theorem mem_reservedWords_iff (name : String) :
    name.toList ∈ reservedWords.map String.toList ↔ name ∈ reservedWords :=
  List.mem_map_of_injective fun _ _ => String.toList_inj.mp

theorem isIdentifier_of_reserved : ∀ word ∈ reservedWords, isIdentifier word.toList = true := by
  decide

theorem isWord_of_isPrintableAscii {c : Char} (h : isPrintableAscii c = true) : isWord c = isAsciiWord c := by
  simp only [isPrintableAscii, Bool.and_eq_true, decide_eq_true_eq] at h
  have hascii : c.toNat < 0x80 := by omega
  rw [isWord, if_pos hascii, isAsciiWord]

/-- Of the words that are taken for names, Lua refuses the reserved ones and those beyond ASCII. -/
theorem isLegalName_of_identifier {name : List Char} (hname : ∀ c ∈ name, isPrintableAscii c = true)
    (hid : isIdentifier name = true) :
    isLegalName name = !(reservedWords.map String.toList).contains name := by
  cases name with
  | nil => cases hid
  | cons first rest =>
    have hall : rest.all isWord = rest.all isAsciiWord := by
      rw [Bool.eq_iff_iff, List.all_eq_true, List.all_eq_true]
      refine forall₂_congr fun c hc => ?_
      rw [isWord_of_isPrintableAscii (hname c (List.mem_cons_of_mem first hc))]
    rw [isIdentifier, hall] at hid
    rw [isLegalName, hid, Bool.true_and]

variable {α : Type} [Scalar α]

theorem return_not_mem_colorText (c : Option (Color α)) : '\r' ∉ (colorText c).toList := by
  cases c with
  | none =>
    show '\r' ∉ "NONE".toList
    decide
  | some c =>
    intro h
    have hchar : '\r' ∈ '#' :: '-' :: hexAlphabet := Rgb.mem_hex h
    exact absurd hchar (by decide)

theorem any_isStray_colorText (c : Option (Color α)) :
    (colorText c).toList.any (isStray isLineBreak) = false := by
  rw [any_isStray_isLineBreak, List.contains_eq_mem]
  exact decide_eq_false (return_not_mem_colorText c)

theorem isReadable_of_isPrintableAscii {name : String} (hname : ∀ d ∈ name.toList, isPrintableAscii d = true) :
    isReadable isLineBreak isLegalName name.toList = !reservedWords.contains name := by
  have hreserved : (reservedWords.map String.toList).contains name.toList = reservedWords.contains name := by
    rw [List.contains_eq_mem, List.contains_eq_mem]
    exact decide_eq_decide.mpr (mem_reservedWords_iff name)
  rw [isReadable, any_isStray_isLineBreak]
  by_cases hid : isIdentifier name.toList = true
  · rw [if_pos hid, isLegalName_of_identifier hname hid, hreserved]
  · -- A name between brackets is no reserved word and holds no carriage return.
    have hreturn : name.toList.contains '\r' = false := by
      rw [List.contains_eq_mem]
      exact decide_eq_false fun hmem => absurd (hname '\r' hmem) (by decide)
    have hfree : reservedWords.contains name = false := by
      rw [List.contains_eq_mem]
      exact decide_eq_false fun hmem => hid (isIdentifier_of_reserved name hmem)
    rw [if_neg hid, hreturn, hfree]

/-- The line of a global with a name in printable ASCII is an assignment of Lua to the field of exactly that name,
unless the name is a reserved word: then the line is no statement of Lua. -/
theorem globalLine_assigns_unless_reserved (name : String) (c : Option (Color α))
    (hname : ∀ d ∈ name.toList, isPrintableAscii d = true) :
    readAssignment? isLineBreak isLegalName (globalLine name c).toList =
      if name ∈ reservedWords then none else some (name.toList, (colorText c).toList) := by
  rw [readAssignment?_globalLine isLineBreak isLegalName name (any_isStray_colorText c),
    isReadable_of_isPrintableAscii hname]
  by_cases h : name ∈ reservedWords <;> simp [h]

private def slate : Color Float := ⟨220, 0.2, 0.12⟩

theorem globalLine_assigns_slate :
    (∀ d ∈ "my-\"var".toList, isPrintableAscii d = true) ∧
      readAssignment? isLineBreak isLegalName (globalLine "my-\"var" (some slate)).toList =
        some ("my-\"var".toList, "#181d25".toList) ∧
      readAssignment? isLineBreak isLegalName (globalLine "terminal_color_0" (some slate)).toList =
        some ("terminal_color_0".toList, "#181d25".toList) := by
  have hslate : colorText (some slate) = "#181d25" := by decide +kernel
  have hascii : ∀ d ∈ "my-\"var".toList, isPrintableAscii d = true := List.all_eq_true.mp (by decide)
  have hquoted := globalLine_assigns_unless_reserved "my-\"var" (some slate) hascii
  have hpointed := globalLine_assigns_unless_reserved "terminal_color_0" (some slate) (List.all_eq_true.mp (by decide))
  rw [hslate] at hquoted hpointed
  exact ⟨hascii, hquoted.trans (if_neg (by decide)), hpointed.trans (if_neg (by decide))⟩

theorem globalLine_end_refused :
    readAssignment? isLineBreak isLegalName (globalLine "end" (none : Option (Color Float))).toList = none := by
  decide

end Legality

end EditorTheme.Lua
