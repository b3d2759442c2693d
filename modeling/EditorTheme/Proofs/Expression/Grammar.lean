import EditorTheme.Expression.Grammar
import EditorTheme.Proofs.Text.Scanning

/-!
The words of color expressions as decompositions of texts: names, and calls made of a word, blanks and a body in
parentheses. The recognisers accept exactly these and find the parts.
-/

set_option autoImplicit false
set_option relaxedAutoImplicit false

namespace EditorTheme.Expression

open EditorTheme.Text

/-- A name: an ASCII letter or digit or an underscore, then word characters and hyphens. -/
inductive Name : List Char → Prop
  | mk {first : Char} {rest : List Char} :
      isAsciiLetter first = true ∨ isAsciiDigit first = true ∨ first = '_' →
      (∀ c ∈ rest, isWord c = true ∨ c = '-') → Name (first :: rest)

/-- A function word: an ASCII letter or an underscore, then word characters. -/
inductive Word : List Char → Prop
  | mk {first : Char} {rest : List Char} : isAsciiLetter first = true ∨ first = '_' →
      (∀ c ∈ rest, isWord c = true) → Word (first :: rest)

/-- A call: a function word, blanks or none, and a body between the first parenthesis and the last character, which
closes it. The body may hold any characters, parentheses and line feeds among them. -/
inductive Calls : List Char → Call → Prop
  | mk {word blanks body : List Char} : Word word → (∀ c ∈ blanks, isBlank c = true) →
      Calls (word ++ (blanks ++ '(' :: (body ++ [')']))) ⟨word, body⟩

theorem isName_iff {cs : List Char} : isName cs = true ↔ Name cs := by
  constructor
  · intro h
    cases cs with
    | nil => cases h
    | cons first rest =>
      simp only [isName, Bool.and_eq_true, Bool.or_eq_true, beq_iff_eq, List.all_eq_true, or_assoc] at h
      exact .mk h.1 h.2
  · rintro ⟨hfirst, hrest⟩
    simp only [isName, Bool.and_eq_true, Bool.or_eq_true, beq_iff_eq, List.all_eq_true, or_assoc]
    exact ⟨hfirst, hrest⟩

theorem parenthesized?_eq_some_iff {cs body : List Char} :
    parenthesized? cs = some body ↔ cs = '(' :: (body ++ [')']) := by
  constructor
  · intro h
    unfold parenthesized? at h
    split at h
    · rename_i cs
      split at h
      · rename_i hlast
        obtain ⟨inner, rfl⟩ := List.getLast?_eq_some_iff.mp hlast
        obtain rfl : inner = body := by simpa using h
        rfl
      · cases h
    · cases h
  · rintro rfl
    simp [parenthesized?]

theorem head_blanks_parenthesis {blanks : List Char} (h : ∀ c ∈ blanks, isBlank c = true) (rest : List Char) :
    ∀ c ∈ (blanks ++ '(' :: rest).head?, isWord c = false := by
  cases blanks with
  | nil =>
    intro c hc
    obtain rfl : '(' = c := by simpa using hc
    decide
  | cons blank blanks =>
    intro c hc
    obtain rfl : blank = c := by simpa using hc
    exact isWord_eq_false_of_isBlank (h blank List.mem_cons_self)

theorem Call.read?_eq_some_iff {cs : List Char} {call : Call} : Call.read? cs = some call ↔ Calls cs call := by
  constructor
  · intro h
    cases cs with
    | nil => cases h
    | cons first rest =>
      simp only [Call.read?, Bool.or_eq_true, beq_iff_eq] at h
      split at h
      · rename_i hfirst
        obtain ⟨body, hbody, rfl⟩ := Option.map_eq_some_iff.mp h
        have htail : dropBlanks (rest.dropWhile isWord) = '(' :: (body ++ [')']) :=
          parenthesized?_eq_some_iff.mp hbody
        have hrest : rest = rest.takeWhile isWord ++
            ((rest.dropWhile isWord).takeWhile isBlank ++ '(' :: (body ++ [')'])) := by
          rw [← htail]
          unfold dropBlanks
          rw [List.takeWhile_append_dropWhile, List.takeWhile_append_dropWhile]
        have hcalls : Calls ((first :: rest.takeWhile isWord) ++
            ((rest.dropWhile isWord).takeWhile isBlank ++ '(' :: (body ++ [')'])))
            ⟨first :: rest.takeWhile isWord, body⟩ :=
          .mk (.mk hfirst fun _ hc => List.mem_takeWhile_imp hc) fun _ hc => List.mem_takeWhile_imp hc
        rwa [List.cons_append, ← hrest] at hcalls
      · cases h
  · rintro ⟨hword, hblanks⟩
    rename_i word blanks body
    cases hword with
    | @mk first rest hfirst hrest =>
      -- The word cannot run on into the blanks or the parenthesis, nor the blanks into the parenthesis.
      have hhead := head_blanks_parenthesis hblanks (body ++ [')'])
      have hend : dropBlanks (blanks ++ '(' :: (body ++ [')'])) = '(' :: (body ++ [')']) :=
        dropWhile_run hblanks (by simp [isBlank])
      simp only [Call.read?, List.cons_append, Bool.or_eq_true, beq_iff_eq, if_pos hfirst,
        takeWhile_run hrest hhead, dropWhile_run hrest hhead, hend]
      rw [parenthesized?_eq_some_iff.mpr rfl]
      rfl

theorem Function.ofWord?_eq_some_iff {word : List Char} {function : Function} :
    Function.ofWord? word = some function ↔ lower word = function.name.toList := by
  constructor
  · intro h
    have hfound := List.find?_some h
    exact (of_decide_eq_true hfound).symm
  · intro h
    unfold Function.ofWord?
    rw [h]
    cases function <;> decide

theorem Name.not_calls {cs : List Char} (h : Name cs) (call : Call) : ¬ Calls cs call := by
  intro hcalls
  have hmem : '(' ∈ cs := by
    cases hcalls
    simp
  cases h with
  | @mk first rest hfirst hrest =>
    rcases List.mem_cons.mp hmem with rfl | hmem
    · exact absurd hfirst (by decide)
    · exact absurd (hrest '(' hmem) (by decide)

theorem Name.not_mem {cs : List Char} (h : Name cs) {c : Char} (hascii : c.toNat < 0x80) (hword : isWord c = false)
    (hhyphen : c ≠ '-') : c ∉ cs := by
  intro hmem
  cases h with
  | @mk first rest hfirst hrest =>
    rcases List.mem_cons.mp hmem with rfl | hmem
    · rw [isWord, if_pos hascii] at hword
      simp only [Bool.or_eq_false_iff, beq_eq_false_iff_ne] at hword
      obtain ⟨⟨hletter, hdigit⟩, hunderscore⟩ := hword
      simp [hletter, hdigit, hunderscore] at hfirst
    · rcases hrest c hmem with hc | hc
      · exact absurd hc (ne_true_of_eq_false hword)
      · exact hhyphen hc

theorem Name.exists_not_blank {cs : List Char} (h : Name cs) : ∃ c ∈ cs, isBlank c = false := by
  cases h with
  | @mk first rest hfirst _ => exact ⟨first, List.mem_cons_self, isBlank_eq_false_of_ascii hfirst⟩

theorem Name.head_ne {cs : List Char} (h : Name cs) : cs.head? ≠ some '#' ∧ cs.head? ≠ some '$' := by
  cases h with
  | @mk first rest hfirst _ =>
    constructor
    · intro hhead
      obtain rfl : first = '#' := by simpa using hhead
      exact absurd hfirst (by decide)
    · intro hhead
      obtain rfl : first = '$' := by simpa using hhead
      exact absurd hfirst (by decide)

theorem Calls.head_ne {cs : List Char} {call : Call} (h : Calls cs call) : cs.head? ≠ some '#' := by
  cases h with
  | @mk word blanks body hword _ =>
    cases hword with
    | @mk first rest hfirst _ =>
      intro hhead
      obtain rfl : first = '#' := by simpa using hhead
      exact absurd hfirst (by decide)

end EditorTheme.Expression
