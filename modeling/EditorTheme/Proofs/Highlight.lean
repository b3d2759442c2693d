import EditorTheme.Highlight
import EditorTheme.Proofs.Style
import EditorTheme.Proofs.Text.Words

/-!
The grammar of highlight values. A value is a link by its first five characters or else a row of fields, and from there
on its words alone decide: a link has one word behind its mark, a row has one to four fields, each of which is a hyphen,
the name of a color or a run of style letters. Of several bad fields the leftmost is reported.
-/

set_option autoImplicit false
set_option relaxedAutoImplicit false

namespace EditorTheme

variable {α : Type}

/-- The color that a field of a theme with these colors asks for. -/
inductive ColorField (colors : Table (Color α)) : String → Option (Color α) → Prop
  | unset : ColorField colors "-" none
  | named {name : String} {c : Color α} (hname : name ≠ "-") (hcolor : colors.find? name = some c) :
      ColorField colors name (some c)

section Color

variable {colors : Table (Color α)} {group name : String}

theorem namedColor_eq_ok_iff {slot : Option (Color α)} :
    namedColor colors group name = .ok slot ↔ ColorField colors name slot := by
  unfold namedColor
  split
  · next hname =>
    subst hname
    constructor
    · intro h
      obtain rfl := Except.ok.inj h
      exact .unset
    · intro h
      cases h with
      | unset => rfl
      | named hname => exact absurd rfl hname
  · next hname =>
    constructor
    · intro h
      split at h
      · next c hcolor =>
        obtain rfl := Except.ok.inj h
        exact .named hname hcolor
      · cases h
    · intro h
      cases h with
      | unset => exact absurd rfl hname
      | named _ hcolor => rw [hcolor]

theorem namedColor_eq_error_iff {error : ThemeError α} :
    namedColor colors group name = .error error ↔
      name ≠ "-" ∧ name ∉ colors.names ∧ error = .unknownColor name group := by
  have hnames : name ∉ colors.names ↔ colors.find? name = none := by
    rw [colors.mem_names_iff, Option.eq_none_iff_forall_ne_some, not_exists]
  rw [hnames]
  unfold namedColor
  split
  · next hname => simp [hname]
  · next hname => cases colors.find? name <;> simp [hname, eq_comm]

end Color

namespace Highlight

open EditorTheme.Text

/-- A link and what stands behind its mark, both without the blanks around them. -/
inductive IsLink (value : String) (target : List Char) : Prop
  | mk {rest : List Char} (hline : Strips value.toList ("link:".toList ++ rest)) (htarget : Strips rest target)

/-- A line that is no link, as fields between blanks. -/
inductive HasFields (value : String) (fields : List String) : Prop
  | mk {line : List Char} (hline : Strips value.toList line) (hmark : ¬ "link:".toList <+: line)
      (hfields : Spells line (fields.map String.toList))

/-- What is wrong with the field at a place: colors stand at all places but the third. -/
inductive FieldFault (colors : Table (Color α)) (group : String) : Nat → String → ThemeError α → Prop
  | color {place : Nat} {name : String} (hplace : place ≠ 2) (hname : name ≠ "-") (hcolor : name ∉ colors.names) :
      FieldFault colors group place name (.unknownColor name group)
  | style {field : String} {letter : Char} (hfield : field ≠ "-")
      (hletter : FirstFailing (fun c => ∃ flag : StyleFlag, flag.letter = c) field.toList letter) :
      FieldFault colors group 2 field (.unknownStyle letter group)

/-- The outcomes of reading a value, each with its condition. Fields left out at the end are hyphens. -/
inductive Outcome (colors : Table (Color α)) (group value : String) : Except (ThemeError α) (Highlight α) → Prop
  | link {target : List Char} (hlink : IsLink value target) (hne : target ≠ [])
      (htarget : ∀ c ∈ target, isBlank c = false) : Outcome colors group value (.ok (.link (String.ofList target)))
  | badLink {target : List Char} (hlink : IsLink value target) (hbad : target = [] ∨ ∃ c ∈ target, isBlank c = true) :
      Outcome colors group value (.error (.invalidHighlight group value))
  | badCount {fields : List String} (hfields : HasFields value fields) (hcount : fields = [] ∨ 4 < fields.length) :
      Outcome colors group value (.error (.invalidHighlight group value))
  | styled {fields : List String} {styling : Styling α} (hfields : HasFields value fields) (hne : fields ≠ [])
      (hcount : fields.length ≤ 4) (hforeground : ColorField colors (fields.getD 0 "-") styling.foreground)
      (hbackground : ColorField colors (fields.getD 1 "-") styling.background)
      (hstyles : StyleField (fields.getD 2 "-") styling.styles)
      (hspecial : ColorField colors (fields.getD 3 "-") styling.special) :
      Outcome colors group value (.ok (.styled styling))
  | badField {fields : List String} {place : Nat} {error : ThemeError α} (hfields : HasFields value fields)
      (hne : fields ≠ []) (hcount : fields.length ≤ 4)
      (hfault : FieldFault colors group place (fields.getD place "-") error)
      (hfirst : ∀ earlier < place, ∀ error, ¬ FieldFault colors group earlier (fields.getD earlier "-") error) :
      Outcome colors group value (.error error)

variable {colors : Table (Color α)} {group value : String}

section Lines

theorem afterLinkMark?_eq_some_iff {line rest : List Char} :
    afterLinkMark? line = some rest ↔ line = "link:".toList ++ rest := by
  unfold afterLinkMark?
  constructor
  · intro h
    split at h
    · cases h
      rfl
    · cases h
  · rintro rfl
    rfl

theorem afterLinkMark?_eq_none_iff {line : List Char} : afterLinkMark? line = none ↔ ¬ "link:".toList <+: line := by
  rw [Option.eq_none_iff_forall_ne_some]
  constructor
  · rintro h ⟨rest, hrest⟩
    exact h rest (afterLinkMark?_eq_some_iff.mpr hrest.symm)
  · rintro h rest hrest
    exact h ⟨rest, (afterLinkMark?_eq_some_iff.mp hrest).symm⟩

theorem blank_not_mem_linkMark : ∀ c ∈ "link:".toList, isBlank c = false := by
  have hall : ("link:".toList.all fun c => !isBlank c) = true := by decide
  intro c hc
  simpa using List.all_eq_true.mp hall c hc

theorem linkMark_isPrefix_iff_of_head {cs other : List Char} (h : (words other).head? = (words cs).head?) :
    "link:".toList <+: trim other ↔ "link:".toList <+: trim cs := by
  have hne : "link:".toList ≠ [] := by decide
  rw [isPrefix_trim_iff hne blank_not_mem_linkMark, isPrefix_trim_iff hne blank_not_mem_linkMark, h]

theorem isLink_iff {target : List Char} :
    IsLink value target ↔ ∃ rest, afterLinkMark? (trim value.toList) = some rest ∧ Strips rest target := by
  simp only [afterLinkMark?_eq_some_iff, trim_eq_iff]
  constructor
  · rintro ⟨hline, htarget⟩
    exact ⟨_, hline, htarget⟩
  · rintro ⟨rest, hline, htarget⟩
    exact .mk hline htarget

theorem hasFields_iff {fields : List String} :
    HasFields value fields ↔
      ¬ "link:".toList <+: trim value.toList ∧ words value.toList = fields.map String.toList := by
  constructor
  · rintro ⟨hline, hmark, hfields⟩
    obtain rfl := trim_eq_iff.mpr hline
    rw [← words_trim]
    exact ⟨hmark, words_eq_iff.mpr hfields⟩
  · rintro ⟨hmark, hwords⟩
    rw [← words_trim] at hwords
    exact .mk (strips_trim value.toList) hmark (words_eq_iff.mp hwords)

example : HasFields " fg \t  - b " ["fg", "-", "b"] := hasFields_iff.mpr (by decide)

theorem map_ofList_of_words {cs : List Char} {fields : List String} (h : words cs = fields.map String.toList) :
    (words cs).map String.ofList = fields := by
  rw [h, List.map_map]
  exact List.map_id'' (fun _ => String.ofList_toList) fields

theorem map_toList_map_ofList (ws : List (List Char)) : (ws.map String.ofList).map String.toList = ws := by
  rw [List.map_map]
  exact List.map_id'' (fun _ => String.toList_ofList) ws

theorem isLink_or_hasFields (value : String) : (∃ target, IsLink value target) ∨ ∃ fields, HasFields value fields := by
  by_cases hmark : "link:".toList <+: trim value.toList
  · obtain ⟨rest, hrest⟩ := hmark
    exact .inl ⟨trim rest, isLink_iff.mpr ⟨rest, afterLinkMark?_eq_some_iff.mpr hrest.symm, strips_trim rest⟩⟩
  · exact .inr ⟨(words value.toList).map String.ofList, hasFields_iff.mpr ⟨hmark, (map_toList_map_ofList _).symm⟩⟩

end Lines

section Links

variable {rest : List Char} (hmark : afterLinkMark? (trim value.toList) = some rest)
include hmark

theorem read_of_word {word : List Char} (hword : words rest = [word]) :
    read colors group value = .ok (.link (String.ofList word)) := by
  unfold read
  simp only [hmark, hword]

theorem read_of_no_word (hwords : ∀ word, words rest ≠ [word]) :
    read colors group value = .error (.invalidHighlight group value) := by
  unfold read
  rcases hrest : words rest with _ | ⟨word, _ | ⟨second, more⟩⟩
  · simp only [hmark, hrest]
  · exact absurd hrest (hwords word)
  · simp only [hmark, hrest]

end Links

section Fields

def readStyled (colors : Table (Color α)) (group : String) (fields : List String) :
    Except (ThemeError α) (Highlight α) := do
  let foreground ← namedColor colors group (fields.getD 0 "-")
  let background ← namedColor colors group (fields.getD 1 "-")
  let styles ← StyleSet.read (fields.getD 2 "-") group
  let special ← namedColor colors group (fields.getD 3 "-")
  return .styled ⟨foreground, background, styles, special⟩

theorem fields?_of_words {line : List Char} {fields : List String} (h : words line = fields.map String.toList) :
    fields? line = if fields = [] ∨ 4 < fields.length then none
      else some (fields.getD 0 "-", fields.getD 1 "-", fields.getD 2 "-", fields.getD 3 "-") := by
  unfold fields?
  rw [map_ofList_of_words h]
  rcases fields with _ | ⟨a, _ | ⟨b, _ | ⟨c, _ | ⟨d, _ | ⟨e, rest⟩⟩⟩⟩⟩ <;> simp

theorem read_of_badCount {fields : List String} (h : HasFields value fields)
    (hcount : fields = [] ∨ 4 < fields.length) : read colors group value = .error (.invalidHighlight group value) := by
  obtain ⟨hmark, hwords⟩ := hasFields_iff.mp h
  rw [← words_trim] at hwords
  unfold read
  simp only [afterLinkMark?_eq_none_iff.mpr hmark, fields?_of_words hwords, if_pos hcount]

theorem read_of_hasFields {fields : List String} (h : HasFields value fields) (hne : fields ≠ [])
    (hcount : fields.length ≤ 4) : read colors group value = readStyled colors group fields := by
  obtain ⟨hmark, hwords⟩ := hasFields_iff.mp h
  rw [← words_trim] at hwords
  have hfits : ¬ (fields = [] ∨ 4 < fields.length) := not_or.mpr ⟨hne, Nat.not_lt.mpr hcount⟩
  unfold read
  simp only [afterLinkMark?_eq_none_iff.mpr hmark, fields?_of_words hwords, if_neg hfits]
  rfl

theorem readStyled_eq_ok_iff {fields : List String} {result : Highlight α} :
    readStyled colors group fields = .ok result ↔ ∃ styling : Styling α, result = .styled styling ∧
      ColorField colors (fields.getD 0 "-") styling.foreground ∧
      ColorField colors (fields.getD 1 "-") styling.background ∧ StyleField (fields.getD 2 "-") styling.styles ∧
      ColorField colors (fields.getD 3 "-") styling.special := by
  simp only [readStyled, bind_eq_ok, pure_eq_ok, namedColor_eq_ok_iff, StyleSet.read_eq_ok_iff]
  constructor
  · rintro ⟨foreground, hforeground, background, hbackground, styles, hstyles, special, hspecial, rfl⟩
    exact ⟨⟨foreground, background, styles, special⟩, rfl, hforeground, hbackground, hstyles, hspecial⟩
  · rintro ⟨styling, rfl, hforeground, hbackground, hstyles, hspecial⟩
    exact ⟨_, hforeground, _, hbackground, _, hstyles, _, hspecial, rfl⟩

end Fields

section Faults

variable {fields : List String} {place : Nat} {field name : String} {error : ThemeError α}

theorem FieldFault.ne_hyphen (h : FieldFault colors group place field error) : field ≠ "-" := by
  cases h with
  | color _ hname => exact hname
  | style hfield => exact hfield

theorem FieldFault.place_lt (h : FieldFault colors group place (fields.getD place "-") error) :
    place < fields.length := by
  rcases Nat.lt_or_ge place fields.length with hplace | hout
  · exact hplace
  · have hyphen : fields.getD place "-" = "-" := by simp [hout]
    exact absurd hyphen h.ne_hyphen

theorem fieldFault_color_iff (hplace : place ≠ 2) :
    FieldFault colors group place name error ↔ namedColor colors group name = .error error := by
  rw [namedColor_eq_error_iff]
  constructor
  · intro h
    cases h with
    | color _ hname hcolor => exact ⟨hname, hcolor, rfl⟩
    | style => exact absurd rfl hplace
  · rintro ⟨hname, hcolor, rfl⟩
    exact .color hplace hname hcolor

theorem fieldFault_style_iff : FieldFault colors group 2 field error ↔ StyleSet.read field group = .error error := by
  rw [StyleSet.read_eq_error_iff]
  constructor
  · intro h
    cases h with
    | color hplace => exact absurd rfl hplace
    | style hfield hletter => exact ⟨hfield, _, hletter, rfl⟩
  · rintro ⟨hfield, letter, hletter, rfl⟩
    exact .style hfield hletter

theorem not_fieldFault_color_iff (hplace : place ≠ 2) :
    (∀ error, ¬ FieldFault colors group place name error) ↔ ∃ slot, namedColor colors group name = .ok slot := by
  simp only [fieldFault_color_iff hplace, forall_not_error_iff]

theorem not_fieldFault_style_iff : (∀ error, ¬ FieldFault colors group 2 field error) ↔
    ∃ styles, (StyleSet.read field group : Except (ThemeError α) StyleSet) = .ok styles := by
  simp only [fieldFault_style_iff, forall_not_error_iff]

theorem readStyled_eq_error_iff (hcount : fields.length ≤ 4) :
    readStyled colors group fields = .error error ↔ ∃ place,
      FieldFault colors group place (fields.getD place "-") error ∧
        ∀ earlier < place, ∀ error, ¬ FieldFault colors group earlier (fields.getD earlier "-") error := by
  unfold readStyled
  constructor
  · intro h
    have hnone : ∀ earlier < 0, ∀ error, ¬ FieldFault colors group earlier (fields.getD earlier "-") error :=
      fun earlier hlt => absurd hlt (Nat.not_lt_zero earlier)
    rcases bind_eq_error.mp h with hforeground | ⟨foreground, hforeground, h⟩
    · exact ⟨0, (fieldFault_color_iff (by decide)).mpr hforeground, hnone⟩
    have hfirst := Nat.forall_lt_succ_right.mpr ⟨hnone, (not_fieldFault_color_iff (by decide)).mpr ⟨_, hforeground⟩⟩
    rcases bind_eq_error.mp h with hbackground | ⟨background, hbackground, h⟩
    · exact ⟨1, (fieldFault_color_iff (by decide)).mpr hbackground, hfirst⟩
    have hsecond := Nat.forall_lt_succ_right.mpr ⟨hfirst, (not_fieldFault_color_iff (by decide)).mpr ⟨_, hbackground⟩⟩
    rcases bind_eq_error.mp h with hstyles | ⟨styles, hstyles, h⟩
    · exact ⟨2, fieldFault_style_iff.mpr hstyles, hsecond⟩
    have hthird := Nat.forall_lt_succ_right.mpr ⟨hsecond, not_fieldFault_style_iff.mpr ⟨_, hstyles⟩⟩
    rcases bind_eq_error.mp h with hspecial | ⟨special, hspecial, h⟩
    · exact ⟨3, (fieldFault_color_iff (by decide)).mpr hspecial, hthird⟩
    · exact absurd h pure_ne_error
  · rintro ⟨place, hfault, hfirst⟩
    have hplace : place < 4 := Nat.lt_of_lt_of_le hfault.place_lt hcount
    have hforeground := fun h => (not_fieldFault_color_iff (by decide)).mp (hfirst 0 h)
    have hbackground := fun h => (not_fieldFault_color_iff (by decide)).mp (hfirst 1 h)
    have hstyles := fun h => not_fieldFault_style_iff.mp (hfirst 2 h)
    obtain rfl | rfl | rfl | rfl : place = 0 ∨ place = 1 ∨ place = 2 ∨ place = 3 := by omega
    · exact bind_of_error ((fieldFault_color_iff (by decide)).mp hfault) _
    · obtain ⟨_, hforeground⟩ := hforeground (by decide)
      rw [bind_of_ok hforeground]
      exact bind_of_error ((fieldFault_color_iff (by decide)).mp hfault) _
    · obtain ⟨_, hforeground⟩ := hforeground (by decide)
      obtain ⟨_, hbackground⟩ := hbackground (by decide)
      rw [bind_of_ok hforeground, bind_of_ok hbackground]
      exact bind_of_error (fieldFault_style_iff.mp hfault) _
    · obtain ⟨_, hforeground⟩ := hforeground (by decide)
      obtain ⟨_, hbackground⟩ := hbackground (by decide)
      obtain ⟨_, hstyles⟩ := hstyles (by decide)
      rw [bind_of_ok hforeground, bind_of_ok hbackground, bind_of_ok hstyles]
      exact bind_of_error ((fieldFault_color_iff (by decide)).mp hfault) _

end Faults

section Outcomes

theorem Outcome.read_eq {result : Except (ThemeError α) (Highlight α)} (h : Outcome colors group value result) :
    read colors group value = result := by
  cases h with
  | link hlink hne htarget =>
    obtain ⟨rest, hmark, hstrips⟩ := isLink_iff.mp hlink
    exact read_of_word hmark (words_eq_singleton_iff.mpr ⟨hstrips, hne, htarget⟩)
  | badLink hlink hbad =>
    obtain ⟨rest, hmark, hstrips⟩ := isLink_iff.mp hlink
    refine read_of_no_word hmark fun word hword => ?_
    obtain ⟨hword, hne, hsolid⟩ := words_eq_singleton_iff.mp hword
    obtain rfl := (trim_eq_iff.mpr hstrips).symm.trans (trim_eq_iff.mpr hword)
    rcases hbad with hnil | ⟨c, hc, hblank⟩
    · exact hne hnil
    · exact absurd hblank (by simp [hsolid c hc])
  | badCount hfields hcount => exact read_of_badCount hfields hcount
  | styled hfields hne hcount hforeground hbackground hstyles hspecial =>
    rw [read_of_hasFields hfields hne hcount]
    exact readStyled_eq_ok_iff.mpr ⟨_, rfl, hforeground, hbackground, hstyles, hspecial⟩
  | badField hfields hne hcount hfault hfirst =>
    rw [read_of_hasFields hfields hne hcount]
    exact (readStyled_eq_error_iff hcount).mpr ⟨_, hfault, hfirst⟩

theorem exists_outcome (colors : Table (Color α)) (group value : String) :
    ∃ result, Outcome colors group value result := by
  rcases isLink_or_hasFields value with ⟨target, hlink⟩ | ⟨fields, hfields⟩
  · by_cases hbad : target = [] ∨ ∃ c ∈ target, isBlank c = true
    · exact ⟨_, .badLink hlink hbad⟩
    · obtain ⟨hne, hsolid⟩ := not_or.mp hbad
      exact ⟨_, .link hlink hne fun c hc => Bool.eq_false_iff.mpr fun hblank => hsolid ⟨c, hc, hblank⟩⟩
  · by_cases hcount : fields = [] ∨ 4 < fields.length
    · exact ⟨_, .badCount hfields hcount⟩
    · obtain ⟨hne, hlong⟩ := not_or.mp hcount
      have hcount : fields.length ≤ 4 := Nat.le_of_not_lt hlong
      cases hread : readStyled colors group fields with
      | ok result =>
        obtain ⟨styling, -, hforeground, hbackground, hstyles, hspecial⟩ := readStyled_eq_ok_iff.mp hread
        exact ⟨_, .styled hfields hne hcount hforeground hbackground hstyles hspecial⟩
      | error error =>
        obtain ⟨place, hfault, hfirst⟩ := (readStyled_eq_error_iff hcount).mp hread
        exact ⟨_, .badField hfields hne hcount hfault hfirst⟩

theorem read_eq_iff {result : Except (ThemeError α) (Highlight α)} :
    read colors group value = result ↔ Outcome colors group value result := by
  constructor
  · rintro rfl
    obtain ⟨result, h⟩ := exists_outcome colors group value
    rwa [h.read_eq]
  · exact Outcome.read_eq

end Outcomes

section Spelling

variable {other : String} {fields : List String}

theorem HasFields.of_words (h : HasFields value fields) (hsame : words other.toList = words value.toList) :
    HasFields other fields := by
  obtain ⟨hmark, hwords⟩ := hasFields_iff.mp h
  have hlead := linkMark_isPrefix_iff_of_head (congrArg List.head? hsame)
  exact hasFields_iff.mpr ⟨mt hlead.mp hmark, hsame.trans hwords⟩

theorem exists_afterLinkMark?_of_words {rest : List Char} (hmark : afterLinkMark? (trim value.toList) = some rest)
    (hsame : words other.toList = words value.toList) :
    ∃ rest', afterLinkMark? (trim other.toList) = some rest' ∧ words rest' = words rest := by
  have hvalue := afterLinkMark?_eq_some_iff.mp hmark
  have hlead := linkMark_isPrefix_iff_of_head (congrArg List.head? hsame)
  obtain ⟨rest', hother⟩ := hlead.mpr ⟨rest, hvalue.symm⟩
  have hlines : words ("link:".toList ++ rest') = words ("link:".toList ++ rest) := by
    rw [hother, ← hvalue, words_trim, words_trim, hsame]
  exact ⟨rest', afterLinkMark?_eq_some_iff.mpr hother.symm,
    words_eq_of_lead_append (by decide) blank_not_mem_linkMark hlines⟩

/-- Values with the same words are read alike, except that a refusal quotes the value. -/
theorem read_of_words (hsame : words other.toList = words value.toList) :
    read colors group other = read colors group value ∨
      read colors group value = .error (.invalidHighlight group value) ∧
        read colors group other = .error (.invalidHighlight group other) := by
  cases hmark : afterLinkMark? (trim value.toList) with
  | some rest =>
    obtain ⟨rest', hmark', hrest⟩ := exists_afterLinkMark?_of_words hmark hsame
    by_cases hword : ∃ word, words rest = [word]
    · obtain ⟨word, hword⟩ := hword
      exact .inl ((read_of_word hmark' (hrest.trans hword)).trans (read_of_word hmark hword).symm)
    · rw [not_exists] at hword
      exact .inr ⟨read_of_no_word hmark hword, read_of_no_word hmark' (hrest ▸ hword)⟩
  | none =>
    have hfields : HasFields value ((words value.toList).map String.ofList) :=
      hasFields_iff.mpr ⟨afterLinkMark?_eq_none_iff.mp hmark, (map_toList_map_ofList _).symm⟩
    have hfields' := hfields.of_words hsame
    generalize (words value.toList).map String.ofList = fields at hfields hfields'
    by_cases hcount : fields = [] ∨ 4 < fields.length
    · exact .inr ⟨read_of_badCount hfields hcount, read_of_badCount hfields' hcount⟩
    · obtain ⟨hne, hlong⟩ := not_or.mp hcount
      have hfits : fields.length ≤ 4 := Nat.le_of_not_lt hlong
      exact .inl ((read_of_hasFields hfields' hne hfits).trans (read_of_hasFields hfields hne hfits).symm)

theorem HasFields.append_hyphen (h : HasFields value fields) (hne : fields ≠ []) :
    HasFields (value ++ " -") (fields ++ ["-"]) := by
  obtain ⟨hmark, hwords⟩ := hasFields_iff.mp h
  have hlonger : words (value ++ " -").toList = words value.toList ++ ["-".toList] := by
    have hlast : words " -".toList = ["-".toList] := by decide
    have hstop : ∀ c ∈ " -".toList.head?, isBlank c = true := by
      rintro _ ⟨⟩
      decide
    rw [String.toList_append, words_append_of_stop hstop, hlast]
  have hhead : (words (value ++ " -").toList).head? = (words value.toList).head? := by
    rw [hlonger, hwords]
    exact List.head?_append_of_ne_nil _ (by simpa using hne)
  refine hasFields_iff.mpr ⟨mt (linkMark_isPrefix_iff_of_head hhead).mp hmark, ?_⟩
  rw [hlonger, hwords, List.map_append]
  rfl

theorem getD_append_hyphen (fields : List String) (place : Nat) :
    (fields ++ ["-"]).getD place "-" = fields.getD place "-" := by
  rw [List.getD_eq_getElem?_getD, List.getD_eq_getElem?_getD, List.getElem?_append]
  split
  · rfl
  · next hout =>
    have hnone : fields[place]? = none := List.getElem?_eq_none (Nat.le_of_not_lt hout)
    rw [hnone]
    cases place - fields.length <;> rfl

theorem readStyled_append_hyphen (fields : List String) :
    readStyled colors group (fields ++ ["-"]) = readStyled colors group fields := by
  simp only [readStyled, getD_append_hyphen]

end Spelling

/-- Reading a value has the outcome that the grammar gives it, whatever blanks stand between its words and whether or
not a last hyphen is written. -/
theorem read_follows_grammar (colors : Table (Color α)) (group value : String) :
    (∀ result, read colors group value = result ↔ Outcome colors group value result) ∧
      (∀ fields, HasFields value fields → fields ≠ [] → fields.length ≤ 3 →
        read colors group (value ++ " -") = read colors group value) ∧
      (∀ fields other, HasFields value fields → fields ≠ [] → fields.length ≤ 4 →
        Spells other.toList (fields.map String.toList) → read colors group other = read colors group value) ∧
      ∀ ws other, Spells value.toList ws → Spells other.toList ws →
        read colors group other = read colors group value ∨
          read colors group value = .error (.invalidHighlight group value) ∧
            read colors group other = .error (.invalidHighlight group other) := by
  refine ⟨fun result => read_eq_iff, ?_, ?_, ?_⟩
  · intro fields hfields hne hcount
    have hlonger : (fields ++ ["-"]).length ≤ 4 := by
      rw [List.length_append, List.length_singleton]
      omega
    rw [read_of_hasFields (hfields.append_hyphen hne) (List.append_ne_nil_of_left_ne_nil hne _) hlonger,
      readStyled_append_hyphen, read_of_hasFields hfields hne (by omega)]
  · intro fields other hfields hne hcount hother
    have hsame : words other.toList = words value.toList := by
      rw [words_of_spells hother, (hasFields_iff.mp hfields).2]
    rw [read_of_hasFields (hfields.of_words hsame) hne hcount, read_of_hasFields hfields hne hcount]
  · intro ws other hvalue hother
    exact read_of_words ((words_of_spells hother).trans (words_of_spells hvalue).symm)

end Highlight

end EditorTheme
