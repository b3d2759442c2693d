import EditorTheme.Json
import EditorTheme.Proofs.Color.Hexadecimal

/-!
Reading strings of JSON text. A string is read in two steps: first as 16-bit units, where an escape by four
hexadecimal digits is one unit, then as characters, where a high unit and the low one behind it are one character. A
quoted text is read back whole, whatever follows it.
-/

set_option autoImplicit false
set_option relaxedAutoImplicit false

namespace EditorTheme.Json

open EditorTheme.Text

section Units

def hexUnit? (a b c d : Char) : Option Nat := do
  let a ← Rgb.hexValue? a
  let b ← Rgb.hexValue? b
  let c ← Rgb.hexValue? c
  let d ← Rgb.hexValue? d
  return 16 * (16 * (16 * a + b) + c) + d

def unescape? (mark : Char) : Option Char :=
  if mark = '"' ∨ mark = '\\' ∨ mark = '/' then some mark
  else if mark = 'n' then some '\n'
  else if mark = 'r' then some '\r'
  else if mark = 't' then some '\t'
  else if mark = 'f' then some '\x0c'
  else if mark = 'b' then some '\x08'
  else none

/-- Reads on up to the quote that closes a string: the units, and what follows the quote. Control characters may not
stand for themselves. -/
def readUnits? : List Char → Option (List Nat × List Char)
  | [] => none
  | '"' :: rest => some ([], rest)
  | '\\' :: 'u' :: a :: b :: c :: d :: rest => do
    let u ← hexUnit? a b c d
    let (us, after) ← readUnits? rest
    return (u :: us, after)
  | '\\' :: mark :: rest => do
    let c ← unescape? mark
    let (us, after) ← readUnits? rest
    return (c.toNat :: us, after)
  | c :: rest =>
    if c.toNat < 0x20 then none
    else do
      let (us, after) ← readUnits? rest
      return (c.toNat :: us, after)

theorem hexDigits_four {u : Nat} (h : u < 0x10000) :
    hexDigits 4 u = [Nat.digitChar (u / 16 / 16 / 16), Nat.digitChar (u / 16 / 16 % 16), Nat.digitChar (u / 16 % 16),
      Nat.digitChar (u % 16)] := by
  have hlead : u / 16 / 16 / 16 < 16 := by omega
  rw [hexDigits_add_two, hexDigits_add_two, hexDigits_add_two, hexDigits_one hlead]
  rfl

theorem readUnits?_hexDigits {u : Nat} (h : u < 0x10000) (rest : List Char) :
    readUnits? ('\\' :: 'u' :: (hexDigits 4 u ++ rest)) = (readUnits? rest).map fun r => (u :: r.1, r.2) := by
  have hunit : hexUnit? (Nat.digitChar (u / 16 / 16 / 16)) (Nat.digitChar (u / 16 / 16 % 16))
      (Nat.digitChar (u / 16 % 16)) (Nat.digitChar (u % 16)) = some u := by
    have hsum : 16 * (16 * (16 * (u / 16 / 16 / 16) + u / 16 / 16 % 16) + u / 16 % 16) + u % 16 = u := by omega
    rw [hexUnit?, Rgb.hexValue?_digitChar _ (by omega), Rgb.hexValue?_digitChar _ (by omega),
      Rgb.hexValue?_digitChar _ (by omega), Rgb.hexValue?_digitChar _ (by omega)]
    simp only [Option.bind_eq_bind, Option.bind_some, Option.pure_def, hsum]
  rw [hexDigits_four h]
  show readUnits? ('\\' :: 'u' :: _ :: _ :: _ :: _ :: rest) = _
  rw [readUnits?, hunit]
  cases readUnits? rest <;> rfl

theorem readUnits?_cons_of_ne {c : Char} (hquote : c ≠ '"') (hslash : c ≠ '\\') (hcontrol : 0x20 ≤ c.toNat)
    (rest : List Char) : readUnits? (c :: rest) = (readUnits? rest).map fun r => (c.toNat :: r.1, r.2) := by
  rw [readUnits?, if_neg (by omega)]
  · cases readUnits? rest <;> rfl
  · exact hquote
  · intro _ _ _ _ _ h
    exact absurd h hslash
  · intro _ _ h
    exact absurd h hslash

theorem readUnits?_mark {mark c : Char} (hmark : mark ≠ 'u') (h : unescape? mark = some c) (rest : List Char) :
    readUnits? ('\\' :: mark :: rest) = (readUnits? rest).map fun r => (c.toNat :: r.1, r.2) := by
  rw [readUnits?, h]
  · cases readUnits? rest <;> rfl
  · intro _ _ _ _ _ hu
    exact absurd hu hmark

theorem readUnits?_flatMap_hexDigits {us : List Nat} (h : ∀ u ∈ us, u < 0x10000) (rest : List Char) :
    readUnits? ((us.flatMap fun u => '\\' :: 'u' :: hexDigits 4 u) ++ rest) =
      (readUnits? rest).map fun r => (us ++ r.1, r.2) := by
  induction us with
  | nil =>
    show readUnits? rest = (readUnits? rest).map id
    rw [Option.map_id_fun, id]
  | cons u us ih =>
    obtain ⟨hu, hus⟩ := List.forall_mem_cons.mp h
    rw [List.flatMap_cons, List.append_assoc, List.cons_append, List.cons_append, readUnits?_hexDigits hu, ih hus,
      Option.map_map]
    rfl

theorem units16_lt (c : Char) : ∀ u ∈ units16 c.toNat, u < 0x10000 := by
  have hc : c.toNat < 0x110000 := by
    have hvalid := c.valid
    simp only [UInt32.isValidChar, Nat.isValidChar] at hvalid
    show c.val.toNat < 0x110000
    omega
  intro u hu
  unfold units16 at hu
  split at hu
  · rw [List.mem_singleton.mp hu]
    assumption
  · simp only [List.mem_cons, List.not_mem_nil, or_false] at hu
    omega

/-- The characters that are escaped by a mark of their own. -/
def markedChars : List Char := ['"', '\\', '\n', '\r', '\t', '\x0c', '\x08']

theorem escapeChar_of_mem_markedChars :
    ∀ c ∈ markedChars, ∃ mark, escapeChar c = ['\\', mark] ∧ mark ≠ 'u' ∧ unescape? mark = some c := by
  simp only [markedChars, List.forall_mem_cons]
  exact ⟨⟨'"', by decide⟩, ⟨'\\', by decide⟩, ⟨'n', by decide⟩, ⟨'r', by decide⟩, ⟨'t', by decide⟩, ⟨'f', by decide⟩,
    ⟨'b', by decide⟩, by simp⟩

theorem toNat_lt_of_mem_markedChars : ∀ c ∈ markedChars, c.toNat < 0x10000 := by
  simp [markedChars]

theorem escapeChar_of_not_mem_markedChars {c : Char} (h : c ∉ markedChars) :
    escapeChar c = if 0x20 ≤ c.toNat ∧ c.toNat ≤ 0x7E then [c]
      else (units16 c.toNat).flatMap fun u => '\\' :: 'u' :: hexDigits 4 u := by
  simp only [markedChars, List.mem_cons, List.not_mem_nil, or_false, not_or] at h
  obtain ⟨hquote, hslash, hfeed, hreturn, htab, hpage, hback⟩ := h
  rw [escapeChar, if_neg hquote, if_neg hslash, if_neg hfeed, if_neg hreturn, if_neg htab, if_neg hpage, if_neg hback]

theorem readUnits?_escapeChar (c : Char) (rest : List Char) :
    readUnits? (escapeChar c ++ rest) = (readUnits? rest).map fun r => (units16 c.toNat ++ r.1, r.2) := by
  by_cases hmarked : c ∈ markedChars
  · obtain ⟨mark, hescape, hmark, hmeant⟩ := escapeChar_of_mem_markedChars c hmarked
    have hunit : units16 c.toNat = [c.toNat] := if_pos (toNat_lt_of_mem_markedChars c hmarked)
    rw [hescape, hunit]
    exact readUnits?_mark hmark hmeant rest
  rw [escapeChar_of_not_mem_markedChars hmarked]
  by_cases hprint : 0x20 ≤ c.toNat ∧ c.toNat ≤ 0x7E
  · have hunit : units16 c.toNat = [c.toNat] := if_pos (by omega)
    have hquote : c ≠ '"' := by
      rintro rfl
      exact hmarked (by decide)
    have hslash : c ≠ '\\' := by
      rintro rfl
      exact hmarked (by decide)
    rw [if_pos hprint, hunit]
    exact readUnits?_cons_of_ne hquote hslash hprint.1 rest
  · rw [if_neg hprint]
    exact readUnits?_flatMap_hexDigits (units16_lt c) rest

theorem readUnits?_flatMap_escapeChar (cs rest : List Char) :
    readUnits? (cs.flatMap escapeChar ++ '"' :: rest) = some (cs.flatMap fun c => units16 c.toNat, rest) := by
  induction cs with
  | nil => rfl
  | cons c cs ih =>
    rw [List.flatMap_cons, List.append_assoc, readUnits?_escapeChar, ih]
    rfl

end Units

section Characters

/-- Whether two units are the halves of a character beyond U+FFFF. -/
def isPair (high low : Nat) : Bool := 0xD800 ≤ high && high < 0xDC00 && 0xDC00 ≤ low && low < 0xE000

/-- The characters of a list of units; a half without its other half is none. -/
def ofUnits? : List Nat → Option (List Char)
  | [] => some []
  | [u] => if u.isValidChar then some [Char.ofNat u] else none
  | u :: v :: rest =>
    if isPair u v then
      (ofUnits? rest).map (Char.ofNat (0x10000 + 0x400 * (u - 0xD800) + (v - 0xDC00)) :: ·)
    else if u.isValidChar then (ofUnits? (v :: rest)).map (Char.ofNat u :: ·)
    else none

theorem ofUnits?_units16 (c : Char) (rest : List Nat) :
    ofUnits? (units16 c.toNat ++ rest) = (ofUnits? rest).map (c :: ·) := by
  have hvalid : c.toNat.isValidChar := c.valid
  by_cases hsmall : c.toNat < 0x10000
  · have hunit : units16 c.toNat = [c.toNat] := if_pos hsmall
    rw [hunit, List.singleton_append]
    cases rest with
    | nil =>
      show ofUnits? [c.toNat] = some [c]
      rw [ofUnits?, if_pos hvalid, Char.ofNat_toNat]
    | cons v rest =>
      -- No character is a half of a pair, so what follows it is left alone.
      have hpair : isPair c.toNat v = false := by
        simp only [isPair, Nat.isValidChar, Bool.and_eq_false_iff, decide_eq_false_iff_not] at hvalid ⊢
        omega
      rw [ofUnits?, hpair, if_neg Bool.false_ne_true, if_pos hvalid, Char.ofNat_toNat]
  · have hunits : units16 c.toNat = [0xD800 + (c.toNat - 0x10000) / 0x400, 0xDC00 + (c.toNat - 0x10000) % 0x400] :=
      if_neg hsmall
    have hpair : isPair (0xD800 + (c.toNat - 0x10000) / 0x400) (0xDC00 + (c.toNat - 0x10000) % 0x400) = true := by
      simp only [isPair, Nat.isValidChar, Bool.and_eq_true, decide_eq_true_eq] at hvalid ⊢
      omega
    have hcode : 0x10000 + 0x400 * (0xD800 + (c.toNat - 0x10000) / 0x400 - 0xD800) +
        (0xDC00 + (c.toNat - 0x10000) % 0x400 - 0xDC00) = c.toNat := by omega
    rw [hunits]
    show ofUnits? (_ :: _ :: rest) = _
    rw [ofUnits?, if_pos hpair, hcode, Char.ofNat_toNat]

theorem ofUnits?_flatMap_units16 (cs : List Char) : ofUnits? (cs.flatMap fun c => units16 c.toNat) = some cs := by
  induction cs with
  | nil => rfl
  | cons c cs ih =>
    rw [List.flatMap_cons, ofUnits?_units16, ih]
    rfl

end Characters

def readString? : List Char → Option (String × List Char)
  | '"' :: rest => do
    let (us, after) ← readUnits? rest
    return (String.ofList (← ofUnits? us), after)
  | _ => none

theorem quoted_append (s : String) (rest : List Char) :
    (quoted s).toList ++ rest = '"' :: (s.toList.flatMap escapeChar ++ '"' :: rest) := by
  simp [quoted]

theorem readString?_quoted (s : String) (rest : List Char) :
    readString? ((quoted s).toList ++ rest) = some (s, rest) := by
  rw [quoted_append, readString?, readUnits?_flatMap_escapeChar]
  simp only [Option.bind_eq_bind, Option.bind_some, ofUnits?_flatMap_units16, Option.pure_def, String.ofList_toList]

example : readString? "\"\\u00e9\\ud834\\udd1e\", 1".toList = some ("é𝄞", ", 1".toList) := by decide

end EditorTheme.Json
