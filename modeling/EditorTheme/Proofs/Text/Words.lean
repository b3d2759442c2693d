import EditorTheme.Proofs.Text.Scanning

/-!
Texts as words between blanks. Each text is a row of words with blanks around them in exactly one way, and the words are
all that cutting it at its blanks keeps; taking the blanks off its ends leaves a text that neither begins nor ends with
one.
-/

set_option autoImplicit false
set_option relaxedAutoImplicit false

namespace EditorTheme.Text

/-- A text between blanks, without a blank at its own ends. -/
inductive Strips : List Char → List Char → Prop
  | mk {front line back : List Char} (hfront : ∀ c ∈ front, isBlank c = true) (hback : ∀ c ∈ back, isBlank c = true)
      (hfirst : ∀ c ∈ line.head?, isBlank c = false) (hlast : ∀ c ∈ line.getLast?, isBlank c = false) :
      Strips (front ++ line ++ back) line

/-- A row of words with any blanks in front of them and behind them, and at least one between any two. -/
inductive Spells : List Char → List (List Char) → Prop
  | blanks {cs : List Char} (hblank : ∀ c ∈ cs, isBlank c = true) : Spells cs []
  | word {front word rest : List Char} {others : List (List Char)} (hfront : ∀ c ∈ front, isBlank c = true)
      (hne : word ≠ []) (hword : ∀ c ∈ word, isBlank c = false) (hstop : ∀ c ∈ rest.head?, isBlank c = true)
      (hothers : Spells rest others) : Spells (front ++ word ++ rest) (word :: others)

theorem Strips.head {cs line : List Char} (h : Strips cs line) : ∀ c ∈ line.head?, isBlank c = false := by
  obtain ⟨-, -, hfirst, -⟩ := h
  exact hfirst

theorem Spells.isPrefix {cs word : List Char} {others : List (List Char)} (h : Spells cs (word :: others))
    (hcs : ∀ c ∈ cs.head?, isBlank c = false) : word <+: cs := by
  cases h with
  | @word front _ rest _ hfront =>
    cases front with
    | nil => exact ⟨rest, rfl⟩
    | cons c front =>
      have hblank : isBlank c = true := hfront c List.mem_cons_self
      rw [hcs c rfl] at hblank
      cases hblank

section Strip

theorem dropBlanks_run {front rest : List Char} (hfront : ∀ c ∈ front, isBlank c = true)
    (hrest : ∀ c ∈ rest.head?, isBlank c = false) : dropBlanks (front ++ rest) = rest := dropWhile_run hfront hrest

theorem exists_eq_append_dropBlanks (cs : List Char) :
    ∃ front, cs = front ++ dropBlanks cs ∧ (∀ c ∈ front, isBlank c = true) ∧
      ∀ c ∈ (dropBlanks cs).head?, isBlank c = false := by
  refine ⟨cs.takeWhile isBlank, List.takeWhile_append_dropWhile.symm, fun c hc => List.mem_takeWhile_imp hc, ?_⟩
  intro c hc
  have hnot := List.head?_dropWhile_not isBlank cs
  rw [dropBlanks] at hc
  rw [Option.mem_def.mp hc] at hnot
  simpa using hnot

theorem strips_trim (cs : List Char) : Strips cs (trim cs) := by
  obtain ⟨front, hcs, hfront, hfirst⟩ := exists_eq_append_dropBlanks cs
  obtain ⟨back, hrest, hback, hlast⟩ := exists_eq_append_dropBlanks (dropBlanks cs).reverse
  have hline : dropBlanks cs = trim cs ++ back.reverse := by
    rw [trim, ← List.reverse_append, ← hrest, List.reverse_reverse]
  have hstrips : Strips (front ++ trim cs ++ back.reverse) (trim cs) := by
    refine .mk hfront (fun c hc => hback c (List.mem_reverse.mp hc)) (fun c hc => hfirst c ?_) (fun c hc => hlast c ?_)
    · rw [hline]
      exact List.mem_head?_append_of_mem_head? hc
    · rwa [trim, List.getLast?_reverse] at hc
  rwa [List.append_assoc, ← hline, ← hcs] at hstrips

theorem trim_eq_iff {cs line : List Char} : trim cs = line ↔ Strips cs line := by
  constructor
  · rintro rfl
    exact strips_trim cs
  · rintro ⟨hfront, hback, hfirst, hlast⟩
    rename_i front back
    cases line with
    | nil =>
      have hall : ∀ c ∈ front ++ back, isBlank c = true := fun c hc =>
        (List.mem_append.mp hc).elim (hfront c) (hback c)
      have hnone : dropBlanks (front ++ back) = [] := by
        rw [← List.append_nil (front ++ back)]
        exact dropBlanks_run hall (by simp)
      rw [trim, List.append_nil, hnone]
      rfl
    | cons first line =>
      have hfront' : dropBlanks (front ++ (first :: line) ++ back) = (first :: line) ++ back := by
        rw [List.append_assoc]
        exact dropBlanks_run hfront hfirst
      have hback' : dropBlanks ((first :: line) ++ back).reverse = (first :: line).reverse := by
        rw [List.reverse_append]
        refine dropBlanks_run (fun c hc => hback c (List.mem_reverse.mp hc)) fun c hc => hlast c ?_
        rwa [List.head?_reverse] at hc
      rw [trim, hfront', hback', List.reverse_reverse]

theorem trim_eq_nil_iff {cs : List Char} : trim cs = [] ↔ ∀ c ∈ cs, isBlank c = true := by
  rw [trim_eq_iff]
  constructor
  · intro h c hc
    cases h with
    | @mk front _ back hfront hback _ _ =>
      rw [List.append_nil] at hc
      exact (List.mem_append.mp hc).elim (hfront c) (hback c)
  · intro hall
    have hstrips : Strips (cs ++ [] ++ []) [] := .mk hall (by simp) (by simp) (by simp)
    rwa [List.append_nil, List.append_nil] at hstrips

end Strip

section Words

theorem words_append_of_blanks {blanks : List Char} (hblank : ∀ c ∈ blanks, isBlank c = true) (cs : List Char) :
    words (blanks ++ cs) = words cs := by
  induction blanks with
  | nil => rfl
  | cons c blanks ih =>
    obtain ⟨hc, hrest⟩ := List.forall_mem_cons.mp hblank
    have hcut := words_append_blank hc [] (blanks ++ cs)
    exact hcut.trans (ih hrest)

theorem words_of_blanks {blanks : List Char} (hblank : ∀ c ∈ blanks, isBlank c = true) : words blanks = [] := by
  have hnone := words_append_of_blanks hblank []
  rw [List.append_nil] at hnone
  exact hnone.trans rfl

theorem words_append_of_stop {rest : List Char} (hstop : ∀ c ∈ rest.head?, isBlank c = true) (cs : List Char) :
    words (cs ++ rest) = words cs ++ words rest := by
  cases rest with
  | nil =>
    have hnone : words [] = [] := words_of_blanks (by simp)
    rw [hnone, List.append_nil, List.append_nil]
  | cons c rest =>
    have hc : isBlank c = true := hstop c rfl
    have hblank : ∀ blank ∈ [c], isBlank blank = true := by simpa using hc
    have hskip : words (c :: rest) = words rest := words_append_of_blanks hblank rest
    rw [words_append_blank hc, hskip]

theorem words_append_blanks {blanks : List Char} (hblank : ∀ c ∈ blanks, isBlank c = true) (cs : List Char) :
    words (cs ++ blanks) = words cs := by
  have hstop : ∀ c ∈ blanks.head?, isBlank c = true := fun c hc => hblank c (List.mem_of_mem_head? hc)
  rw [words_append_of_stop hstop, words_of_blanks hblank, List.append_nil]

theorem words_of_solid {word : List Char} (hne : word ≠ []) (hword : ∀ c ∈ word, isBlank c = false) :
    words word = [word] := by
  rw [words, List.splitOnP_eq_singleton hword]
  simp [hne]

theorem words_of_strips {cs line : List Char} (h : Strips cs line) : words cs = words line := by
  obtain ⟨hfront, hback, -, -⟩ := h
  rw [words_append_blanks hback, words_append_of_blanks hfront]

theorem words_trim (cs : List Char) : words (trim cs) = words cs := (words_of_strips (strips_trim cs)).symm

theorem words_of_spells {cs : List Char} {ws : List (List Char)} (h : Spells cs ws) : words cs = ws := by
  induction h with
  | blanks hblank => exact words_of_blanks hblank
  | word hfront hne hword hstop _ ih =>
    rw [words_append_of_stop hstop, words_append_of_blanks hfront, words_of_solid hne hword, ih]
    rfl

theorem exists_eq_append_stop (cs : List Char) :
    ∃ run rest, cs = run ++ rest ∧ (∀ c ∈ run, isBlank c = false) ∧ ∀ c ∈ rest.head?, isBlank c = true := by
  refine ⟨cs.takeWhile (!isBlank ·), cs.dropWhile (!isBlank ·), List.takeWhile_append_dropWhile.symm, ?_, ?_⟩
  · intro c hc
    simpa using List.mem_takeWhile_imp hc
  · intro c hc
    have hnot := List.head?_dropWhile_not (!isBlank ·) cs
    rw [Option.mem_def.mp hc] at hnot
    simpa using hnot

theorem exists_spells (cs : List Char) : ∃ ws, Spells cs ws := by
  induction hlength : cs.length using Nat.strongRecOn generalizing cs with
  | ind length ih =>
    obtain ⟨front, hcs, hfront, hfirst⟩ := exists_eq_append_dropBlanks cs
    cases hdrop : dropBlanks cs with
    | nil =>
      rw [hdrop, List.append_nil] at hcs
      exact ⟨[], .blanks (hcs ▸ hfront)⟩
    | cons c more =>
      rw [hdrop] at hcs hfirst
      have hc : isBlank c = false := hfirst c rfl
      -- The word is the run up to the next blank; what follows is shorter.
      obtain ⟨run, rest, rfl, hrun, hstop⟩ := exists_eq_append_stop more
      have hshorter : rest.length < length := by
        rw [← hlength, hcs]
        simp only [List.length_append, List.length_cons]
        omega
      obtain ⟨others, hothers⟩ := ih _ hshorter rest rfl
      have hspells : Spells (front ++ (c :: run) ++ rest) ((c :: run) :: others) :=
        .word hfront (List.cons_ne_nil c run) (List.forall_mem_cons.mpr ⟨hc, hrun⟩) hstop hothers
      rw [List.append_assoc, List.cons_append, ← hcs] at hspells
      exact ⟨_, hspells⟩

/-- The words of a text are those that it spells between its blanks. -/
theorem words_eq_iff {cs : List Char} {ws : List (List Char)} : words cs = ws ↔ Spells cs ws := by
  constructor
  · rintro rfl
    obtain ⟨ws, h⟩ := exists_spells cs
    rwa [words_of_spells h]
  · exact words_of_spells

theorem words_eq_singleton_iff {cs word : List Char} :
    words cs = [word] ↔ Strips cs word ∧ word ≠ [] ∧ ∀ c ∈ word, isBlank c = false := by
  constructor
  · intro h
    have hspells := words_eq_iff.mp h
    generalize hws : [word] = ws at hspells
    cases hspells with
    | blanks => cases hws
    | word hfront hne hword hstop hothers =>
      obtain ⟨rfl, rfl⟩ := List.cons.inj hws
      cases hothers with
      | blanks hblank =>
        refine ⟨.mk hfront hblank (fun c hc => hword c (List.mem_of_mem_head? hc)) (fun c hc => hword c ?_), hne, hword⟩
        exact List.mem_of_getLast? hc
  · rintro ⟨hstrips, hne, hword⟩
    rw [words_of_strips hstrips, words_of_solid hne hword]

end Words

section Lead

variable {lead cs other : List Char} (hne : lead ≠ []) (hlead : ∀ c ∈ lead, isBlank c = false)
include hne hlead

/-- A text without blanks at the front is the beginning of the first word, and what is left of that word is the first
word of the rest. -/
theorem exists_words_lead_append (rest : List Char) : ∃ tail others,
    words (lead ++ rest) = (lead ++ tail) :: others ∧ words rest = if tail = [] then others else tail :: others := by
  obtain ⟨run, after, rfl, hrun, hstop⟩ := exists_eq_append_stop rest
  refine ⟨run, words after, ?_, ?_⟩
  · have hsolid : ∀ c ∈ lead ++ run, isBlank c = false := fun c hc => (List.mem_append.mp hc).elim (hlead c) (hrun c)
    have hfirst : words (lead ++ run) = [lead ++ run] := words_of_solid (List.append_ne_nil_of_left_ne_nil hne run) hsolid
    rw [← List.append_assoc, words_append_of_stop hstop, hfirst, List.singleton_append]
  · rw [words_append_of_stop hstop]
    split
    · next hnil =>
      have hnone : words run = [] := words_of_blanks (by simp [hnil])
      rw [hnone, List.nil_append]
    · next hrest => rw [words_of_solid hrest hrun, List.singleton_append]

theorem words_eq_of_lead_append {rest later : List Char} (h : words (lead ++ rest) = words (lead ++ later)) :
    words rest = words later := by
  obtain ⟨tail, others, hfirst, hrest⟩ := exists_words_lead_append hne hlead rest
  obtain ⟨tail', others', hfirst', hlater⟩ := exists_words_lead_append hne hlead later
  obtain ⟨hword, rfl⟩ := List.cons.inj (hfirst.symm.trans (h.trans hfirst'))
  obtain rfl := List.append_cancel_left hword
  rw [hrest, hlater]

theorem isPrefix_trim_iff : lead <+: trim cs ↔ ∃ first ∈ (words cs).head?, lead <+: first := by
  constructor
  · rintro ⟨rest, hrest⟩
    obtain ⟨tail, others, hwords, -⟩ := exists_words_lead_append hne hlead rest
    rw [hrest, words_trim] at hwords
    exact ⟨lead ++ tail, by rw [hwords]; rfl, List.prefix_append lead tail⟩
  · rintro ⟨first, hfirst, hpre⟩
    obtain ⟨others, hwords⟩ := List.head?_eq_some_iff.mp hfirst
    have hspells : Spells (trim cs) (first :: others) := words_eq_iff.mp ((words_trim cs).trans hwords)
    exact hpre.trans (hspells.isPrefix (strips_trim cs).head)

end Lead

end EditorTheme.Text
