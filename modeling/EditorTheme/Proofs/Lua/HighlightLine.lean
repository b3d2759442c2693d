import EditorTheme.Lua.Colorscheme
import EditorTheme.Proofs.Color.Hexadecimal
import EditorTheme.Proofs.Lua.Quoted
import EditorTheme.Proofs.Style
import EditorTheme.Proofs.Text.Scanning

/-!
Reading the lines of highlight groups. The line of a group is read back as the group and what is set for it: the group
that it is linked to, or its colors and its flags in their order. Reading bars no character, so the strings may hold
whatever they like.
-/

set_option autoImplicit false
set_option relaxedAutoImplicit false

namespace EditorTheme.Lua

open EditorTheme.Text

variable {α : Type} [Scalar α]

/-- What is set for a highlight group. Colors are given by their texts; none stands for an unset color. -/
inductive GroupSetting where
  | link (target : String)
  | styled (foreground background special : Option String) (flags : List StyleFlag)
  deriving Repr, DecidableEq

def groupSetting : Highlight α → GroupSetting
  | .link target => .link target
  | .styled s =>
    .styled (s.foreground.map Color.hex) (s.background.map Color.hex) (s.special.map Color.hex) s.styles.toList

section Colors

def readText? : List Char → Option (List Char × List Char) := readString? fun _ => false

@[simp] theorem readText?_quotedChars (cs rest : List Char) :
    readText? (quotedChars cs ++ rest) = some (cs, rest) := by
  rw [readText?, readString?_quotedChars, any_isStray_of_none_barred, if_neg Bool.false_ne_true]

/-- The text of a color, or none for the word that unsets it. -/
def colorOfText? (text : List Char) : Option String :=
  if text = "NONE".toList then none else some (String.ofList text)

theorem colorOfText?_colorText (c : Option (Color α)) : colorOfText? (colorText c).toList = c.map Color.hex := by
  cases c with
  | none => exact if_pos rfl
  | some c =>
    have hne : c.hex.toList ≠ "NONE".toList := by
      intro h
      exact Rgb.hex_ne_of_head (by decide) c.toRgb (String.toList_inj.mp h)
    show colorOfText? c.hex.toList = some c.hex
    rw [colorOfText?, if_neg hne, String.ofList_toList]

def readColor? (cs : List Char) : Option (Option String × List Char) :=
  (readText? cs).map fun r => (colorOfText? r.1, r.2)

@[simp] theorem readColor?_colorText (c : Option (Color α)) (rest : List Char) :
    readColor? (quotedChars (colorText c).toList ++ rest) = some (c.map Color.hex, rest) := by
  rw [readColor?, readText?_quotedChars, Option.map_some, colorOfText?_colorText]

end Colors

section Flags

/-- What is written to switch a flag on after other attributes. -/
def flagText (flag : StyleFlag) : String := ", " ++ flag.name ++ " = true"

def flagChars (flag : StyleFlag) : List Char := (flagText flag).toList

def readFlags : List StyleFlag → List Char → List StyleFlag × List Char
  | [], cs => ([], cs)
  | flag :: flags, cs =>
    match after? (flagText flag) cs with
    | some rest => (flag :: (readFlags flags rest).1, (readFlags flags rest).2)
    | none => readFlags flags cs

theorem nodup_all : StyleFlag.all.Nodup := by
  decide

theorem not_prefix_flagChars :
    ∀ flag ∈ StyleFlag.all, ∀ other ∈ StyleFlag.all, flag ≠ other → ¬ flagChars flag <+: flagChars other := by
  decide +kernel

/-- No flag is written as the beginning of another one, so a flag that is not there is not found. -/
theorem after?_flagText_of_ne {flag other : StyleFlag} (h : flag ≠ other) (rest : List Char) :
    after? (flagText flag) (flagChars other ++ rest) = none :=
  after?_eq_none (not_prefix_flagChars flag flag.mem_all other other.mem_all h)
    (not_prefix_flagChars other other.mem_all flag flag.mem_all h.symm) rest

theorem readFlags_flagChars (keep : StyleFlag → Bool) {flags : List StyleFlag} (hflags : flags.Nodup)
    {rest : List Char} (hrest : ∀ flag, after? (flagText flag) rest = none) :
    readFlags flags ((flags.filter keep).flatMap flagChars ++ rest) = (flags.filter keep, rest) := by
  induction flags with
  | nil => rfl
  | cons flag flags ih =>
    obtain ⟨hnot, hnodup⟩ := List.nodup_cons.mp hflags
    by_cases hkeep : keep flag = true
    · have hfound : after? (flagText flag) (flagChars flag ++ ((flags.filter keep).flatMap flagChars ++ rest)) =
          some ((flags.filter keep).flatMap flagChars ++ rest) := after?_append (flagText flag) _
      rw [List.filter_cons_of_pos hkeep, List.flatMap_cons, List.append_assoc, readFlags, hfound]
      simp only [ih hnodup]
    · rw [List.filter_cons_of_neg hkeep, readFlags]
      have habsent : after? (flagText flag) ((flags.filter keep).flatMap flagChars ++ rest) = none := by
        cases hkept : flags.filter keep with
        | nil => exact hrest flag
        | cons other others =>
          have hother : other ∈ flags := List.mem_of_mem_filter (hkept ▸ List.mem_cons_self)
          have hne : flag ≠ other := fun heq => hnot (heq ▸ hother)
          rw [List.flatMap_cons, List.append_assoc]
          exact after?_flagText_of_ne hne _
      rw [habsent]
      exact ih hnodup

end Flags

section Lines

/-- Reads the special color, which is left out where it is unset. -/
def readSpecial? (cs : List Char) : Option (Option String × List Char) :=
  (after? ", sp = " cs).elim (some (none, cs)) readColor?

def readLink? (cs : List Char) : Option (GroupSetting × List Char) :=
  (readText? cs).map fun r => (.link (String.ofList r.1), r.2)

def readStyling? (cs : List Char) : Option (GroupSetting × List Char) := do
  let (foreground, rest) ← readColor? (← after? "fg = " cs)
  let (background, rest) ← readColor? (← after? ", bg = " rest)
  let (special, rest) ← readSpecial? rest
  let (flags, rest) := readFlags StyleFlag.all rest
  return (.styled foreground background special flags, rest)

def readSetting? (cs : List Char) : Option (GroupSetting × List Char) :=
  (after? "link = " cs).elim (readStyling? cs) readLink?

def readHighlightLine? (line : List Char) : Option (String × GroupSetting) := do
  let (group, rest) ← readText? (← after? "    hl(0, " line)
  let (setting, rest) ← readSetting? (← after? ", \x7b " rest)
  if rest = " \x7d)".toList then some (String.ofList group, setting) else none

def specialChars (special : Option (Color α)) : List Char :=
  special.elim [] fun c => ", sp = ".toList ++ quotedChars (colorText (some c)).toList

def linkChars (target : String) : List Char := "link = ".toList ++ quotedChars target.toList

def stylingChars (s : Styling α) : List Char :=
  "fg = ".toList ++ (quotedChars (colorText s.foreground).toList ++ (", bg = ".toList ++
    (quotedChars (colorText s.background).toList ++ (specialChars s.special ++ s.styles.toList.flatMap flagChars))))

def settingChars : Highlight α → List Char
  | .link target => linkChars target
  | .styled s => stylingChars s

theorem toList_attributeSource_string (name s : String) :
    (attributeSource (name, .string s)).toList = name.toList ++ (" = ".toList ++ quotedChars s.toList) := by
  rw [attributeSource, AttributeValue.source, String.toList_append, String.toList_append, toList_quoted,
    List.append_assoc]

theorem flagChars_eq (flag : StyleFlag) :
    ", ".toList ++ (attributeSource (flag.name, .enabled)).toList = flagChars flag := by
  simp only [attributeSource, AttributeValue.source, flagChars, flagText, String.toList_append, List.append_assoc]
  rfl

theorem specialChars_eq (c : Option (Color α)) :
    (if c.isSome then [("sp", AttributeValue.string (colorText c))] else []).flatMap
      (fun a => ", ".toList ++ (attributeSource a).toList) = specialChars c := by
  cases c with
  | none => rfl
  | some c =>
    show ", ".toList ++ (attributeSource ("sp", .string (colorText (some c)))).toList ++ [] = _
    rw [toList_attributeSource_string, List.append_nil]
    rfl

theorem toList_attributes (h : Highlight α) :
    (", ".intercalate ((attributes h).map attributeSource)).toList = settingChars h := by
  rw [String.toList_intercalate, List.map_map]
  cases h with
  | link target =>
    show ", ".toList.intercalate [(attributeSource ("link", .string target)).toList] = _
    rw [List.intercalate_singleton, toList_attributeSource_string]
    rfl
  | styled s =>
    have hflags : (s.styles.toList.flatMap fun flag => ", ".toList ++ (attributeSource (flag.name, .enabled)).toList) =
        s.styles.toList.flatMap flagChars := List.flatMap_congr fun flag _ => flagChars_eq flag
    simp only [attributes, List.cons_append, List.nil_append, List.map_cons, intercalate_cons, List.flatMap_cons,
      List.flatMap_map, List.flatMap_append, Function.comp_apply, toList_attributeSource_string, specialChars_eq,
      hflags, List.append_assoc]
    rfl

theorem toList_highlightLine (group : String) (h : Highlight α) :
    (highlightLine group h).toList =
      "    hl(0, ".toList ++ (quotedChars group.toList ++ (", \x7b ".toList ++ (settingChars h ++ " \x7d)".toList))) := by
  rw [highlightLine]
  simp only [String.toList_append, toList_quoted, toList_attributes, List.append_assoc]

theorem not_prefix_special : ∀ flag ∈ StyleFlag.all,
    ¬ ", sp = ".toList <+: flagChars flag ∧ ¬ flagChars flag <+: ", sp = ".toList := by
  decide +kernel

theorem readSpecial?_specialChars (c : Option (Color α)) (flags : List StyleFlag) :
    readSpecial? (specialChars c ++ (flags.flatMap flagChars ++ " \x7d)".toList)) =
      some (c.map Color.hex, flags.flatMap flagChars ++ " \x7d)".toList) := by
  cases c with
  | none =>
    have habsent : after? ", sp = " (flags.flatMap flagChars ++ " \x7d)".toList) = none := by
      cases flags with
      | nil => decide
      | cons flag flags =>
        obtain ⟨hspecial, hflag⟩ := not_prefix_special flag flag.mem_all
        rw [List.flatMap_cons, List.append_assoc]
        exact after?_eq_none hspecial hflag _
    unfold specialChars readSpecial?
    rw [Option.elim_none, List.nil_append, habsent]
    rfl
  | some c =>
    unfold specialChars readSpecial?
    simp only [Option.elim_some, List.append_assoc, after?_append, readColor?_colorText]

theorem readStyling?_stylingChars (s : Styling α) :
    readStyling? (stylingChars s ++ " \x7d)".toList) = some (groupSetting (.styled s), " \x7d)".toList) := by
  have hend : ∀ flag, after? (flagText flag) " \x7d)".toList = none := by
    intro flag
    cases flag <;> decide +kernel
  have hflags : readFlags StyleFlag.all (s.styles.toList.flatMap flagChars ++ " \x7d)".toList) =
      (s.styles.toList, " \x7d)".toList) := readFlags_flagChars s.styles.contains nodup_all hend
  unfold stylingChars readStyling?
  simp only [List.append_assoc, after?_append, Option.bind_eq_bind, Option.bind_some, readColor?_colorText,
    readSpecial?_specialChars, hflags]
  rfl

theorem readLink?_quotedChars (target : String) (rest : List Char) :
    readLink? (quotedChars target.toList ++ rest) = some (.link target, rest) := by
  rw [readLink?, readText?_quotedChars, Option.map_some, String.ofList_toList]

theorem readSetting?_settingChars (h : Highlight α) :
    readSetting? (settingChars h ++ " \x7d)".toList) = some (groupSetting h, " \x7d)".toList) := by
  cases h with
  | link target =>
    show readSetting? (linkChars target ++ " \x7d)".toList) = some (.link target, " \x7d)".toList)
    unfold linkChars readSetting?
    simp only [List.append_assoc, after?_append, Option.elim_some, readLink?_quotedChars]
  | styled s =>
    show readSetting? (stylingChars s ++ " \x7d)".toList) = some (groupSetting (.styled s), " \x7d)".toList)
    have hlink : after? "link = " (stylingChars s ++ " \x7d)".toList) = none := by
      unfold stylingChars
      simp only [List.append_assoc]
      exact after?_eq_none (by decide) (by decide) _
    unfold readSetting?
    rw [hlink, Option.elim_none]
    exact readStyling?_stylingChars s

theorem readHighlightLine?_highlightLine (group : String) (h : Highlight α) :
    readHighlightLine? (highlightLine group h).toList = some (group, groupSetting h) := by
  rw [toList_highlightLine]
  unfold readHighlightLine?
  simp only [Option.bind_eq_bind, Option.bind_some, readText?_quotedChars, after?_append, readSetting?_settingChars,
    if_true, String.ofList_toList]

end Lines

end EditorTheme.Lua
