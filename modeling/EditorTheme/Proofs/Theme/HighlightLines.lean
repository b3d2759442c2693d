import EditorTheme.Proofs.Highlight
import EditorTheme.Proofs.Lua.Module
import EditorTheme.Proofs.Theme.Compilation

/-!
From the highlights of a document to the lines of its module. The fields of a value are followed through the colors of
the theme to the text that stands in the line of the group, and nothing but the groups has such a line.
-/

set_option autoImplicit false
set_option relaxedAutoImplicit false

namespace EditorTheme.Lua

open EditorTheme.Text

variable {α : Type} [Scalar α]

/-- The fields of a highlight value, between blanks. -/
def valueFields (value : String) : List String := (words value.toList).map String.ofList

/-- The text of the color that a field asks for. A hyphen asks for none, and so does a field left out. -/
inductive FieldText (colors : Table (Color α)) : Option String → Option String → Prop
  | omitted : FieldText colors none none
  | hyphen : FieldText colors (some "-") none
  | named {name : String} {c : Color α} (hname : name ≠ "-") (hcolor : colors.find? name = some c) :
      FieldText colors (some name) (some c.hex)

inductive StyleLetters : Option String → List Char → Prop
  | omitted : StyleLetters none []
  | hyphen : StyleLetters (some "-") []
  | run {field : String} (hfield : field ≠ "-") (hletters : ∀ c ∈ field.toList, ∃ flag : StyleFlag, flag.letter = c) :
      StyleLetters (some field) field.toList

/-- The texts of the attributes that a highlight value asks for, given the colors of the theme. -/
inductive Requests (colors : Table (Color α)) (value : String) : List String → Prop
  | link {rest : List Char} {target : String} (hmark : trim value.toList = "link:".toList ++ rest)
      (htarget : words rest = [target.toList]) : Requests colors value ["link = " ++ quoted target]
  | styled {foreground background special : Option String} {letters : List Char}
      (hmark : ¬ "link:".toList <+: trim value.toList)
      (hforeground : FieldText colors (valueFields value)[0]? foreground)
      (hbackground : FieldText colors (valueFields value)[1]? background)
      (hstyles : StyleLetters (valueFields value)[2]? letters)
      (hspecial : FieldText colors (valueFields value)[3]? special)
      (hcount : (valueFields value).length ≤ 4) :
      Requests colors value
        (["fg = " ++ quoted (foreground.getD "NONE"), "bg = " ++ quoted (background.getD "NONE")] ++
          special.toList.map (fun text => "sp = " ++ quoted text) ++
          (StyleFlag.all.filter fun flag => flag.letter ∈ letters).map fun flag => flag.name ++ " = true")

def groupLine (group : String) (attributes : List String) : String :=
  "    hl(0, " ++ quoted group ++ ", \x7b " ++ ", ".intercalate attributes ++ " \x7d)"

section Fields

variable {colors : Table (Color α)} {group : String}

theorem fieldText_of_colorField {field : Option String} {slot : Option (Color α)}
    (h : ColorField colors (field.getD "-") slot) : FieldText colors field (slot.map Color.hex) := by
  cases field with
  | none =>
    cases h with
    | unset => exact .omitted
    | named hname => exact absurd rfl hname
  | some name =>
    cases h with
    | unset => exact .hyphen
    | named hname hcolor => exact .named hname hcolor

omit [Scalar α] in
theorem styleLetters_of_styleField {field : Option String} {styles : StyleSet}
    (h : StyleField (field.getD "-") styles) :
    ∃ letters, StyleLetters field letters ∧
      styles.toList = StyleFlag.all.filter fun flag => flag.letter ∈ letters := by
  have hempty : StyleSet.empty.toList = StyleFlag.all.filter fun flag => flag.letter ∈ ([] : List Char) := rfl
  cases field with
  | none =>
    cases h with
    | unset => exact ⟨[], .omitted, hempty⟩
    | run hfield => exact absurd rfl hfield
  | some field =>
    cases h with
    | unset => exact ⟨[], .hyphen, hempty⟩
    | run hfield hletters hflags =>
      refine ⟨field.toList, .run hfield hletters, List.filter_congr fun flag _ => ?_⟩
      rw [Bool.eq_iff_iff, decide_eq_true_iff]
      exact hflags flag

theorem attributeSource_string {name lead : String} (hlead : name ++ " = " = lead) (s : String) :
    attributeSource (name, .string s) = lead ++ quoted s := by
  rw [← hlead]
  rfl

theorem attributeSource_enabled (name : String) : attributeSource (name, .enabled) = name ++ " = true" := by
  have htrue : " = " ++ "true" = " = true" := by decide
  rw [← htrue, ← String.append_assoc]
  rfl

theorem map_attributeSource_styled (s : Styling α) :
    (attributes (.styled s)).map attributeSource =
      ["fg = " ++ quoted (colorText s.foreground), "bg = " ++ quoted (colorText s.background)] ++
        (s.special.map Color.hex).toList.map (fun text => "sp = " ++ quoted text) ++
        s.styles.toList.map fun flag => flag.name ++ " = true" := by
  have hspecial : (if s.special.isSome then [("sp", AttributeValue.string (colorText s.special))] else []).map
      attributeSource = (s.special.map Color.hex).toList.map fun text => "sp = " ++ quoted text := by
    cases s.special with
    | none => rfl
    | some c => exact congrArg (fun text => [text]) (attributeSource_string (by decide) c.hex)
  have hflags : (s.styles.toList.map fun flag => (flag.name, AttributeValue.enabled)).map attributeSource =
      s.styles.toList.map fun flag => flag.name ++ " = true" := by
    rw [List.map_map]
    exact List.map_congr_left fun flag _ => attributeSource_enabled flag.name
  unfold attributes
  simp only [List.map_append, hspecial, hflags, List.map_cons, List.map_nil,
    attributeSource_string (show "fg" ++ " = " = "fg = " by decide),
    attributeSource_string (show "bg" ++ " = " = "bg = " by decide)]

theorem requests_of_read {value : String} {h : Highlight α} (hread : Highlight.read colors group value = .ok h) :
    Requests colors value ((attributes h).map attributeSource) := by
  cases Highlight.read_eq_iff.mp hread with
  | link hlink hne htarget =>
    obtain ⟨rest, hmark, hstrips⟩ := Highlight.isLink_iff.mp hlink
    have hword := words_eq_singleton_iff.mpr ⟨hstrips, hne, htarget⟩
    exact .link (Highlight.afterLinkMark?_eq_some_iff.mp hmark) (by rw [hword, String.toList_ofList])
  | styled hfields _ hcount hforeground hbackground hstyles hspecial =>
    obtain ⟨hmark, hwords⟩ := Highlight.hasFields_iff.mp hfields
    have hvalue : valueFields value = _ := Highlight.map_ofList_of_words hwords
    obtain ⟨letters, hletters, hflags⟩ := styleLetters_of_styleField hstyles
    rw [map_attributeSource_styled, hflags]
    subst hvalue
    exact .styled hmark (fieldText_of_colorField hforeground) (fieldText_of_colorField hbackground) hletters
      (fieldText_of_colorField hspecial) hcount

end Fields

section Lines

theorem not_isHighlightLine_append {lead : String} (hlead : ¬ "    hl(0, ".toList <+: lead.toList)
    (hmark : ¬ lead.toList <+: "    hl(0, ".toList) (rest : List Char) :
    isHighlightLine (lead.toList ++ rest) = false := by
  rw [isHighlightLine, after?_eq_none hlead hmark]
  rfl

theorem not_isHighlightLine_settingLines (background : Background) (name : String) :
    ∀ line ∈ settingLines background name, isHighlightLine line.toList = false := by
  have hstring : ∀ lead s : String, ¬ "    hl(0, ".toList <+: lead.toList → ¬ lead.toList <+: "    hl(0, ".toList →
      isHighlightLine (lead ++ s).toList = false := by
    intro lead s hlead hmark
    rw [String.toList_append]
    exact not_isHighlightLine_append hlead hmark s.toList
  unfold settingLines
  simp only [List.forall_mem_cons]
  refine ⟨by decide, by decide, by decide, by decide, by decide, by decide, by decide, by decide, by decide,
    hstring _ _ (by decide) (by decide), by decide, hstring _ _ (by decide) (by decide), by decide, by simp⟩

theorem not_isHighlightLine_endingLines (globals : List (String × Option String)) :
    ∀ line ∈ endingLines globals, isHighlightLine line.toList = false := by
  unfold endingLines
  split <;> decide

theorem filter_isHighlightLine_moduleSource (t : Theme α) :
    ((moduleSource t).toList.splitOn '\n').filter isHighlightLine =
      t.highlights.map fun h => (highlightLine h.1 h.2).toList := by
  have hnone : ∀ lines : List String, (∀ line ∈ lines, isHighlightLine line.toList = false) →
      (lines.map String.toList).filter isHighlightLine = [] := by
    intro lines hlines
    rw [List.filter_eq_nil_iff]
    intro line hline
    obtain ⟨s, hs, rfl⟩ := List.mem_map.mp hline
    rw [hlines s hs]
    exact Bool.false_ne_true
  have hopening : (openingLines.map String.toList).filter isHighlightLine = [] := hnone _ (by decide)
  have hsetup := hnone _ (not_isHighlightLine_settingLines t.background t.name)
  have hending := hnone _ (not_isHighlightLine_endingLines (settings t).globals)
  have hglobals : (t.globals.map fun g => (globalLine g.1 g.2).toList).filter isHighlightLine = [] := by
    rw [List.filter_eq_nil_iff]
    intro line hline
    obtain ⟨g, -, rfl⟩ := List.mem_map.mp hline
    rw [toList_globalLine, not_isHighlightLine_append (by decide) (by decide)]
    exact Bool.false_ne_true
  have hgroups : (t.highlights.map fun h => (highlightLine h.1 h.2).toList).filter isHighlightLine =
      t.highlights.map fun h => (highlightLine h.1 h.2).toList := by
    rw [List.filter_eq_self]
    intro line hline
    obtain ⟨h, -, rfl⟩ := List.mem_map.mp hline
    exact isHighlightLine_highlightLine h.1 h.2
  rw [splitOn_moduleSource, map_toList_moduleLines]
  simp only [List.filter_append, hopening, hgroups, hsetup, hglobals, hending, List.append_nil, List.nil_append]

/-- The module of a compiled theme sets the groups of its document, each once and in their order, to what their values
ask for. -/
theorem compile_highlightLines {d : ThemeDocument} {t : Theme α} (h : Theme.compile d = .ok t) :
    List.Forall₂ (fun entry line => ∃ attributes, Requests t.colors entry.2 attributes ∧
      line = (groupLine entry.1 attributes).toList)
      d.highlights (((moduleSource t).toList.splitOn '\n').filter isHighlightLine) := by
  obtain ⟨hues, hstages⟩ := Theme.compile_eq_ok_iff.mp h
  rw [filter_isHighlightLine_moduleSource, List.forall₂_map_right_iff]
  refine (Highlight.forall₂_of_readAll hstages.highlights).imp ?_
  rintro entry result ⟨hgroup, hread⟩
  refine ⟨_, requests_of_read hread, ?_⟩
  rw [hgroup]
  rfl

theorem compile_highlightLines_dusk : ∃ t : Theme Float, Theme.compile Theme.dusk = .ok t ∧
    List.Forall₂ (fun entry line => ∃ attributes, Requests t.colors entry.2 attributes ∧
      line = (groupLine entry.1 attributes).toList)
      [("Normal", "lit base"), ("Comment", "far - ib"), ("SpellBad", " - - cuc  same"), ("Note", "link: Comment")]
      (((moduleSource t).toList.splitOn '\n').filter isHighlightLine) := by
  obtain ⟨t, ht⟩ := Theme.dusk_compiles
  exact ⟨t, ht, compile_highlightLines ht⟩

end Lines

end EditorTheme.Lua
