import EditorTheme.Text.Blank
import EditorTheme.Text.Word
import Mathlib.Data.List.Basic
import Mathlib.Data.List.TakeWhile

/-!
Cutting texts: a fixed text at the front, the longest run of a class of characters or lines, and the pieces between
separators.
-/

set_option autoImplicit false
set_option relaxedAutoImplicit false

namespace EditorTheme.Text

def after? (lead : String) (cs : List Char) : Option (List Char) := lead.toList.isPrefixOf? cs

@[simp] theorem after?_append (lead : String) (rest : List Char) : after? lead (lead.toList ++ rest) = some rest :=
  List.isPrefixOf?_eq_some_iff_append_eq.mpr rfl

theorem after?_eq_none {lead : String} {front : List Char} (hlead : ¬ lead.toList <+: front)
    (hfront : ¬ front <+: lead.toList) (rest : List Char) : after? lead (front ++ rest) = none := by
  cases hfound : after? lead (front ++ rest) with
  | none => rfl
  | some tail =>
    have hleft : lead.toList <+: front ++ rest := ⟨tail, List.append_eq_of_isPrefixOf?_eq_some hfound⟩
    rcases List.prefix_or_prefix_of_prefix hleft (List.prefix_append front rest) with hpre | hpre
    · exact absurd hpre hlead
    · exact absurd hpre hfront

section Runs

variable {β : Type} {p : β → Bool} {run rest : List β}

theorem takeWhile_run (hrun : ∀ c ∈ run, p c = true)
    (hrest : ∀ c ∈ rest.head?, p c = false) : (run ++ rest).takeWhile p = run := by
  rw [List.takeWhile_append_of_pos hrun]
  cases rest with
  | nil => simp
  | cons c rest => simp [hrest c rfl]

theorem dropWhile_run (hrun : ∀ c ∈ run, p c = true)
    (hrest : ∀ c ∈ rest.head?, p c = false) : (run ++ rest).dropWhile p = rest := by
  rw [List.dropWhile_append_of_pos hrun]
  cases rest with
  | nil => rfl
  | cons c rest => simp [hrest c rfl]

end Runs

theorem intercalate_cons (separator first : List Char) (rest : List (List Char)) :
    separator.intercalate (first :: rest) = first ++ rest.flatMap fun item => separator ++ item := by
  induction rest generalizing first with
  | nil => simp [List.intercalate_singleton]
  | cons second rest ih =>
    rw [List.intercalate_cons_cons, ih, List.flatMap_cons]
    simp only [List.append_assoc]

theorem not_mem_of_mem_splitOn {separator : Char} {cs piece : List Char} (h : piece ∈ cs.splitOn separator) :
    separator ∉ piece := by
  induction cs generalizing piece with
  | nil =>
    obtain rfl : piece = [] := by simpa using h
    exact List.not_mem_nil
  | cons c cs ih =>
    rw [List.splitOn_cons_eq_if_modifyHead] at h
    split at h
    · rcases List.mem_cons.mp h with rfl | hrest
      · exact List.not_mem_nil
      · exact ih hrest
    · rename_i hne
      cases hpieces : cs.splitOn separator with
      | nil => exact absurd hpieces (List.splitOn_ne_nil separator cs)
      | cons first rest =>
        rw [hpieces] at h ih
        rcases List.mem_cons.mp h with rfl | hrest
        · intro hmem
          rcases List.mem_cons.mp hmem with rfl | hmem
          · simp at hne
          · exact ih List.mem_cons_self hmem
        · exact ih (List.mem_cons_of_mem first hrest)

/-- A text is cut at every separator in exactly one way: into pieces without separators that make up the text when
they are joined again. -/
theorem splitOn_eq_iff {separator : Char} {cs : List Char} {pieces : List (List Char)} :
    cs.splitOn separator = pieces ↔
      pieces ≠ [] ∧ (∀ piece ∈ pieces, separator ∉ piece) ∧ [separator].intercalate pieces = cs := by
  constructor
  · rintro rfl
    exact ⟨List.splitOn_ne_nil separator cs, fun _ h => not_mem_of_mem_splitOn h, List.intercalate_splitOn separator⟩
  · rintro ⟨hne, hpieces, rfl⟩
    exact List.splitOn_intercalate separator hpieces hne

private def blankCodes : List Nat :=
  List.range' 0x09 5 ++ List.range' 0x1C 5 ++ List.range' 0x2000 11 ++
    [0x85, 0xA0, 0x1680, 0x2028, 0x2029, 0x202F, 0x205F, 0x3000]

private theorem toNat_mem_blankCodes {c : Char} (h : isBlank c = true) : c.toNat ∈ blankCodes := by
  simp only [isBlank, Bool.or_eq_true, Bool.and_eq_true, decide_eq_true_eq, beq_iff_eq] at h
  simp only [blankCodes, List.mem_append, List.mem_range'_1, List.mem_cons, List.not_mem_nil, or_false]
  omega

theorem isWord_eq_false_of_isBlank {c : Char} (h : isBlank c = true) : isWord c = false := by
  have hall : ∀ n ∈ blankCodes, isWord (Char.ofNat n) = false := by decide +kernel
  have hword := hall c.toNat (toNat_mem_blankCodes h)
  rwa [Char.ofNat_toNat] at hword

theorem isBlank_eq_false_of_ascii {c : Char} (h : isAsciiLetter c = true ∨ isAsciiDigit c = true ∨ c = '_') :
    isBlank c = false := by
  have hall : ∀ n ∈ blankCodes, ¬ (isAsciiLetter (Char.ofNat n) = true ∨ isAsciiDigit (Char.ofNat n) = true ∨
      Char.ofNat n = '_') := by decide
  refine Bool.eq_false_iff.mpr fun hblank => ?_
  have hnot := hall c.toNat (toNat_mem_blankCodes hblank)
  rw [Char.ofNat_toNat] at hnot
  exact hnot h

end EditorTheme.Text
