import EditorTheme.Proofs.Lua.Assignment
import EditorTheme.Proofs.Lua.HighlightLine

/-!
Reading the source of a theme's module back. The text is cut into lines; within the fixed lines stand the lines of the
groups, those of the globals, and the two lines with the background and the name. No text of a theme breaks its line,
so the source tells everything that the theme sets: two themes with one source set the same.
-/

set_option autoImplicit false
set_option relaxedAutoImplicit false

namespace EditorTheme.Lua

open EditorTheme.Text

variable {α : Type} [Scalar α]

/-- What a theme sets in the editor. Colors are given by their texts. -/
structure Settings where
  name : String
  background : Background
  groups : List (String × GroupSetting)
  globals : List (String × Option String)
  deriving Repr, DecidableEq

def settings (t : Theme α) : Settings where
  name := t.name
  background := t.background
  groups := t.highlights.map fun h => (h.1, groupSetting h.2)
  globals := t.globals.map fun g => (g.1, g.2.map Color.hex)

section Reading

def linesAfter? (fixed : List String) (lines : List (List Char)) : Option (List (List Char)) :=
  (fixed.map String.toList).isPrefixOf? lines

theorem linesAfter?_append (fixed : List String) (rest : List (List Char)) :
    linesAfter? fixed (fixed.map String.toList ++ rest) = some rest :=
  List.isPrefixOf?_eq_some_iff_append_eq.mpr rfl

def readStringLine? (lead : String) (line : List Char) : Option (List Char) := do
  let (value, rest) ← readText? (← after? lead line)
  if rest.isEmpty then some value else none

def readSetup? (lines : List (List Char)) : Option (Background × String × List (List Char)) := do
  let background ← Background.ofWord? (← readStringLine? "    vim.o.background = " (← lines[9]?))
  let name ← readStringLine? "    vim.g.colors_name = " (← lines[11]?)
  let rest ← linesAfter? (settingLines background (String.ofList name)) lines
  return (background, String.ofList name, rest)

def readGlobalLine? (line : List Char) : Option (String × Option String) :=
  (readAssignment? (fun _ => false) isIdentifier line).map fun r => (String.ofList r.1, colorOfText? r.2)

def isHighlightLine (line : List Char) : Bool := (after? "    hl(0, " line).isSome

def isGlobalLine (line : List Char) : Bool := (after? "    vim.g" line).isSome

def endingLines (globals : List (String × Option String)) : List String :=
  if globals.isEmpty then closingLines else "" :: closingLines

/-- Reads the source of a module. -/
def readModule? (source : String) : Option Settings := do
  let lines ← linesAfter? openingLines (source.toList.splitOn '\n')
  let groups ← (lines.takeWhile isHighlightLine).mapM readHighlightLine?
  let (background, name, lines) ← readSetup? (lines.dropWhile isHighlightLine)
  let globals ← (lines.takeWhile isGlobalLine).mapM readGlobalLine?
  if lines.dropWhile isGlobalLine = (endingLines globals).map String.toList then
    some { name, background, groups, globals }
  else none

end Reading

section Lines

theorem feed_not_mem_escapeChar (c : Char) : '\n' ∉ escapeChar c := by
  unfold escapeChar
  split_ifs with hslash hquote hfeed
  · decide
  · decide
  · decide
  · rw [List.mem_singleton]
    exact Ne.symm hfeed

theorem feed_not_mem_quotedChars (cs : List Char) : '\n' ∉ quotedChars cs := by
  intro h
  rw [quotedChars, List.mem_append, List.mem_cons, List.mem_flatMap, List.mem_singleton] at h
  rcases h with (hopen | ⟨c, -, hc⟩) | hclose
  · exact absurd hopen (by decide)
  · exact feed_not_mem_escapeChar c hc
  · exact absurd hclose (by decide)

theorem feed_not_mem_fieldChars (name : List Char) : '\n' ∉ fieldChars name := by
  intro h
  rw [fieldChars] at h
  split at h
  · rename_i hid
    rcases List.mem_cons.mp h with hpoint | hmem
    · exact absurd hpoint (by decide)
    · exact absurd (isWord_of_mem_identifier hid hmem) (by decide)
  · rw [List.mem_cons, List.mem_append, List.mem_singleton] at h
    rcases h with hopen | hmem | hclose
    · exact absurd hopen (by decide)
    · exact feed_not_mem_quotedChars name hmem
    · exact absurd hclose (by decide)

theorem feed_not_mem_flagChars : ∀ flag ∈ StyleFlag.all, '\n' ∉ flagChars flag := by
  decide +kernel

theorem feed_not_mem_specialChars (c : Option (Color α)) : '\n' ∉ specialChars c := by
  unfold specialChars
  cases c with
  | none => exact List.not_mem_nil
  | some c =>
    rw [Option.elim_some, List.mem_append, not_or]
    exact ⟨by decide, feed_not_mem_quotedChars _⟩

theorem feed_not_mem_settingChars (h : Highlight α) : '\n' ∉ settingChars h := by
  cases h with
  | link target =>
    show '\n' ∉ linkChars target
    unfold linkChars
    rw [List.mem_append, not_or]
    exact ⟨by decide, feed_not_mem_quotedChars _⟩
  | styled s =>
    have hflags : '\n' ∉ s.styles.toList.flatMap flagChars := by
      rw [List.mem_flatMap]
      rintro ⟨flag, -, hflag⟩
      exact feed_not_mem_flagChars flag flag.mem_all hflag
    show '\n' ∉ stylingChars s
    unfold stylingChars
    simp only [List.mem_append, not_or]
    exact ⟨by decide, feed_not_mem_quotedChars _, by decide, feed_not_mem_quotedChars _,
      feed_not_mem_specialChars _, hflags⟩

theorem feed_not_mem_highlightLine (group : String) (h : Highlight α) : '\n' ∉ (highlightLine group h).toList := by
  rw [toList_highlightLine]
  simp only [List.mem_append, not_or]
  exact ⟨by decide, feed_not_mem_quotedChars _, by decide, feed_not_mem_settingChars h, by decide⟩

theorem feed_not_mem_globalLine (name : String) (c : Option (Color α)) : '\n' ∉ (globalLine name c).toList := by
  rw [toList_globalLine]
  simp only [List.mem_append, not_or]
  exact ⟨by decide, feed_not_mem_fieldChars _, by decide, feed_not_mem_quotedChars _⟩

theorem feed_not_mem_settingLines (background : Background) (name : String) :
    ∀ line ∈ settingLines background name, '\n' ∉ line.toList := by
  have hstring : ∀ lead s : String, '\n' ∉ lead.toList → '\n' ∉ (lead ++ quoted s).toList := by
    intro lead s hlead
    rw [String.toList_append, toList_quoted, List.mem_append, not_or]
    exact ⟨hlead, feed_not_mem_quotedChars _⟩
  unfold settingLines
  simp only [List.forall_mem_cons]
  refine ⟨by decide, by decide, by decide, by decide, by decide, by decide, by decide, by decide, by decide,
    hstring _ _ (by decide), by decide, hstring _ _ (by decide), by decide, by simp⟩

theorem feed_not_mem_moduleLines (t : Theme α) : ∀ line ∈ moduleLines t, '\n' ∉ line.toList := by
  have hopening : ∀ line ∈ openingLines, '\n' ∉ line.toList := by decide
  have hclosing : ∀ line ∈ closingLines, '\n' ∉ line.toList := by decide
  have hglobals : ∀ line ∈ globalLines t.globals, '\n' ∉ line.toList := by
    intro line hline
    unfold globalLines at hline
    split at hline
    · cases hline
    · rcases List.mem_append.mp hline with hmap | hblank
      · obtain ⟨g, -, rfl⟩ := List.mem_map.mp hmap
        exact feed_not_mem_globalLine g.1 g.2
      · rw [List.mem_singleton.mp hblank]
        decide
  have hgroups : ∀ line ∈ t.highlights.map fun h => highlightLine h.1 h.2, '\n' ∉ line.toList := by
    intro line hline
    obtain ⟨h, -, rfl⟩ := List.mem_map.mp hline
    exact feed_not_mem_highlightLine h.1 h.2
  unfold moduleLines
  simp only [List.forall_mem_append]
  exact ⟨⟨⟨⟨hopening, hgroups⟩, feed_not_mem_settingLines t.background t.name⟩, hglobals⟩, hclosing⟩

/-- No text of a theme breaks its line: cut at the line feeds, the source is the list of its lines. -/
theorem splitOn_moduleSource (t : Theme α) :
    (moduleSource t).toList.splitOn '\n' = (moduleLines t).map String.toList := by
  have hfeeds : ∀ line ∈ (moduleLines t).map String.toList, '\n' ∉ line := by
    intro line hline
    obtain ⟨s, hs, rfl⟩ := List.mem_map.mp hline
    exact feed_not_mem_moduleLines t s hs
  have hne : (moduleLines t).map String.toList ≠ [] := by simp [moduleLines, openingLines]
  rw [moduleSource, String.toList_intercalate]
  exact List.splitOn_intercalate '\n' hfeeds hne

end Lines

section Decoding

theorem readStringLine?_quoted (lead s : String) : readStringLine? lead (lead ++ quoted s).toList = some s.toList := by
  have hread : readText? (quotedChars s.toList) = some (s.toList, []) := by
    have hrest := readText?_quotedChars s.toList []
    rwa [List.append_nil] at hrest
  rw [readStringLine?, String.toList_append, toList_quoted, after?_append]
  simp only [Option.bind_eq_bind, Option.bind_some, hread, List.isEmpty_nil, if_true]

theorem ofWord?_name (background : Background) : Background.ofWord? background.name.toList = some background := by
  cases background <;> decide

theorem readSetup?_settingLines (background : Background) (name : String) (rest : List (List Char)) :
    readSetup? ((settingLines background name).map String.toList ++ rest) = some (background, name, rest) := by
  have hbackground : ((settingLines background name).map String.toList ++ rest)[9]? =
      some ("    vim.o.background = " ++ quoted background.name).toList := rfl
  have hname : ((settingLines background name).map String.toList ++ rest)[11]? =
      some ("    vim.g.colors_name = " ++ quoted name).toList := rfl
  unfold readSetup?
  simp only [Option.bind_eq_bind, Option.bind_some, hbackground, hname, readStringLine?_quoted, ofWord?_name,
    String.ofList_toList, linesAfter?_append]
  rfl

theorem readGlobalLine?_globalLine (name : String) (c : Option (Color α)) :
    readGlobalLine? (globalLine name c).toList = some (name, c.map Color.hex) := by
  have hreadable : isReadable (fun _ => false) isIdentifier name.toList = true := by
    rw [isReadable, any_isStray_of_none_barred]
    split
    · assumption
    · rfl
  rw [readGlobalLine?, readAssignment?_globalLine _ _ name (any_isStray_of_none_barred _), if_pos hreadable,
    Option.map_some, String.ofList_toList, colorOfText?_colorText]

theorem isHighlightLine_highlightLine (group : String) (h : Highlight α) :
    isHighlightLine (highlightLine group h).toList = true := by
  rw [toList_highlightLine, isHighlightLine, after?_append]
  rfl

theorem isGlobalLine_globalLine (name : String) (c : Option (Color α)) :
    isGlobalLine (globalLine name c).toList = true := by
  rw [toList_globalLine, isGlobalLine, after?_append]
  rfl

theorem mapM_map_of_read {β γ : Type} {write : β → List Char} {read : List Char → Option γ} {content : β → γ}
    (h : ∀ item, read (write item) = some (content item)) (items : List β) :
    (items.map write).mapM read = some (items.map content) := by
  have hcomp : read ∘ write = fun item => pure (content item) := funext h
  rw [List.mapM_map, hcomp]
  exact List.mapM_pure

theorem globalLines_append_closingLines (globals : List (String × Option (Color α))) :
    globalLines globals ++ closingLines =
      globals.map (fun g => globalLine g.1 g.2) ++ endingLines (globals.map fun g => (g.1, g.2.map Color.hex)) := by
  cases globals with
  | nil => rfl
  | cons g rest => simp [globalLines, endingLines]

/-- The lines of a module in the order of reading: each run of lines ends at a line of another kind. -/
theorem map_toList_moduleLines (t : Theme α) :
    (moduleLines t).map String.toList = openingLines.map String.toList ++
      (t.highlights.map (fun h => (highlightLine h.1 h.2).toList) ++
        ((settingLines t.background t.name).map String.toList ++
          (t.globals.map (fun g => (globalLine g.1 g.2).toList) ++
            (endingLines (settings t).globals).map String.toList))) := by
  unfold moduleLines
  rw [List.append_assoc, globalLines_append_closingLines]
  simp only [List.map_append, List.map_map, List.append_assoc]
  rfl

theorem not_isGlobalLine_endingLines (globals : List (String × Option String)) :
    ∀ line ∈ ((endingLines globals).map String.toList).head?, isGlobalLine line = false := by
  unfold endingLines
  split
  · decide
  · show ∀ line ∈ some "".toList, isGlobalLine line = false
    decide

theorem readModule?_moduleSource (t : Theme α) : readModule? (moduleSource t) = some (settings t) := by
  have hgroups : ∀ line ∈ t.highlights.map fun h => (highlightLine h.1 h.2).toList, isHighlightLine line = true := by
    intro line hline
    obtain ⟨h, -, rfl⟩ := List.mem_map.mp hline
    exact isHighlightLine_highlightLine h.1 h.2
  have hglobals : ∀ line ∈ t.globals.map fun g => (globalLine g.1 g.2).toList, isGlobalLine line = true := by
    intro line hline
    obtain ⟨g, -, rfl⟩ := List.mem_map.mp hline
    exact isGlobalLine_globalLine g.1 g.2
  have hsetup : ∀ rest, ∀ line ∈ ((settingLines t.background t.name).map String.toList ++ rest).head?,
      isHighlightLine line = false := by
    intro rest
    show ∀ line ∈ some "end".toList, isHighlightLine line = false
    decide
  have hending := not_isGlobalLine_endingLines (settings t).globals
  have hreadGroups := mapM_map_of_read (fun h : String × Highlight α => readHighlightLine?_highlightLine h.1 h.2)
    t.highlights
  have hreadGlobals := mapM_map_of_read (fun g : String × Option (Color α) => readGlobalLine?_globalLine g.1 g.2)
    t.globals
  unfold readModule?
  rw [splitOn_moduleSource, map_toList_moduleLines, linesAfter?_append]
  simp only [Option.bind_eq_bind, Option.bind_some, takeWhile_run hgroups (hsetup _), dropWhile_run hgroups (hsetup _),
    hreadGroups, readSetup?_settingLines, takeWhile_run hglobals hending, dropWhile_run hglobals hending, hreadGlobals]
  exact if_pos rfl

/-- The source tells everything that a theme sets: it is read back as that, and no other settings have the same source.
A string of it ends at its own closing quote whatever follows, and a line of it at its own end. -/
theorem source_determines_settings (t : Theme α) :
    readModule? (moduleSource t) = some (settings t) ∧
      (∀ u : Theme α, moduleSource u = moduleSource t → settings u = settings t) ∧
      (∀ (s : String) (rest : List Char), readText? ((quoted s).toList ++ rest) = some (s.toList, rest)) ∧
      (moduleSource t).toList.splitOn '\n' = (moduleLines t).map String.toList := by
  refine ⟨readModule?_moduleSource t, ?_, ?_, splitOn_moduleSource t⟩
  · intro u hsource
    have hread : some (settings u) = some (settings t) := by
      rw [← readModule?_moduleSource u, hsource, readModule?_moduleSource t]
    exact Option.some.inj hread
  · intro s rest
    rw [toList_quoted]
    exact readText?_quotedChars s.toList rest

end Decoding

end EditorTheme.Lua
