import EditorTheme.Lua.Quoted

/-!
Reading strings of Lua source. A string begins at a quote and ends at the first quote that is not escaped; a
backslash escapes a backslash, a quote or, by the letter n, a line feed; every other character stands for itself
unless the reader bars it. What is written between quotes is read back whole, whatever follows it, unless it holds
a barred character that is written as it is. Lua bars line feeds and carriage returns.
-/

set_option autoImplicit false
set_option relaxedAutoImplicit false

namespace EditorTheme.Lua

def unescape? (mark : Char) : Option Char :=
  if mark = '\\' then some '\\'
  else if mark = '"' then some '"'
  else if mark = 'n' then some '\n'
  else none

/-- Reads on up to the quote that closes a string: the characters meant, and what follows the quote. -/
def readTail? (barred : Char → Bool) : List Char → Option (List Char × List Char)
  | [] => none
  | '"' :: rest => some ([], rest)
  | '\\' :: mark :: rest => do
    let c ← unescape? mark
    let (cs, after) ← readTail? barred rest
    return (c :: cs, after)
  | c :: rest =>
    if barred c then none
    else do
      let (cs, after) ← readTail? barred rest
      return (c :: cs, after)

def readString? (barred : Char → Bool) : List Char → Option (List Char × List Char)
  | '"' :: rest => readTail? barred rest
  | _ => none

/-- What may not stand for itself in a string of Lua. -/
def isLineBreak (c : Char) : Bool := c == '\n' || c == '\r'

section Reading

variable (barred : Char → Bool)

/-- A character that is written as it is and that the reader bars. -/
def isStray (c : Char) : Bool := barred c && escapeChar c == [c]

theorem escapeChar_of_ne {c : Char} (hslash : c ≠ '\\') (hquote : c ≠ '"') (hfeed : c ≠ '\n') :
    escapeChar c = [c] := by
  unfold escapeChar
  rw [if_neg hslash, if_neg hquote, if_neg hfeed]

theorem readTail?_cons_of_ne {c : Char} (hslash : c ≠ '\\') (hquote : c ≠ '"') (rest : List Char) :
    readTail? barred (c :: rest) =
      if barred c then none else (readTail? barred rest).map fun r => (c :: r.1, r.2) := by
  rw [readTail?]
  · cases readTail? barred rest <;> rfl
  · exact hquote
  · intro mark rest' h
    exact absurd h hslash

theorem readTail?_escapeChar (c : Char) (rest : List Char) :
    readTail? barred (escapeChar c ++ rest) =
      if isStray barred c then none else (readTail? barred rest).map fun r => (c :: r.1, r.2) := by
  by_cases hslash : c = '\\'
  · subst hslash
    cases h : readTail? barred rest <;> simp [escapeChar, isStray, readTail?, unescape?, h]
  by_cases hquote : c = '"'
  · subst hquote
    cases h : readTail? barred rest <;> simp [escapeChar, isStray, readTail?, unescape?, h]
  by_cases hfeed : c = '\n'
  · subst hfeed
    cases h : readTail? barred rest <;> simp [escapeChar, isStray, readTail?, unescape?, h]
  have hself : escapeChar c = [c] := escapeChar_of_ne hslash hquote hfeed
  have hstray : isStray barred c = barred c := by simp [isStray, hself]
  rw [hself, hstray]
  exact readTail?_cons_of_ne barred hslash hquote rest

theorem readTail?_flatMap_escapeChar (cs rest : List Char) :
    readTail? barred (cs.flatMap escapeChar ++ '"' :: rest) =
      if cs.any (isStray barred) then none else some (cs, rest) := by
  induction cs with
  | nil => rfl
  | cons c cs ih =>
    rw [List.flatMap_cons, List.append_assoc, readTail?_escapeChar, ih, List.any_cons]
    cases isStray barred c <;> cases cs.any (isStray barred) <;> rfl

theorem readString?_quotedChars (cs rest : List Char) :
    readString? barred (quotedChars cs ++ rest) = if cs.any (isStray barred) then none else some (cs, rest) := by
  have happend : quotedChars cs ++ rest = '"' :: (cs.flatMap escapeChar ++ '"' :: rest) := by
    simp [quotedChars]
  rw [happend]
  exact readTail?_flatMap_escapeChar barred cs rest

theorem any_isStray_of_none_barred (cs : List Char) : (cs.any (isStray fun _ => false)) = false := by
  simp [isStray]

theorem toList_quoted (s : String) : (quoted s).toList = quotedChars s.toList := String.toList_ofList

end Reading

theorem isStray_isLineBreak (c : Char) : isStray isLineBreak c = (c == '\r') := by
  by_cases hfeed : c = '\n'
  · subst hfeed
    decide
  by_cases hreturn : c = '\r'
  · subst hreturn
    decide
  have hbarred : isLineBreak c = false := by simp [isLineBreak, beq_false_of_ne hfeed, beq_false_of_ne hreturn]
  rw [isStray, hbarred, Bool.false_and, beq_false_of_ne hreturn]

theorem any_isStray_isLineBreak (cs : List Char) : cs.any (isStray isLineBreak) = cs.contains '\r' := by
  have hstray : isStray isLineBreak = fun c => c == '\r' := funext isStray_isLineBreak
  rw [hstray, List.contains_eq_any_beq]
  simp only [Bool.beq_comm]

/-- Lua reads a quoted text as exactly that text and to its last character, unless the text holds a carriage return:
then the string is no string of Lua. -/
theorem quoted_denotes_unless_return (s : String) (rest : List Char) :
    readString? isLineBreak ((quoted s).toList ++ rest) =
      if '\r' ∈ s.toList then none else some (s.toList, rest) := by
  rw [toList_quoted, readString?_quotedChars, any_isStray_isLineBreak]
  by_cases h : '\r' ∈ s.toList <;> simp [h]

theorem quoted_return_refused : readString? isLineBreak (quoted "Normal\rNC").toList = none := by
  decide

end EditorTheme.Lua
