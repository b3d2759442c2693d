import EditorTheme.Lua.Colorscheme
import EditorTheme.Proofs.Highlight
import EditorTheme.Rational

/-!
Style fields are sets of letters. Fields that are read give the same flags exactly if the same letters occur in them,
and a field in two pieces gives the flags of both. The flags of a group are written in their own order, each once, so
the text of a highlight does not tell in which order or how often its style letters stand.
-/

set_option autoImplicit false
set_option relaxedAutoImplicit false

namespace EditorTheme

variable {α : Type}

/-- The letters of a style field. The hyphen that stands for no flags is none. -/
def styleLetters (field : String) : List Char := if field = "-" then [] else field.toList

section Letters

variable {field other : String} {styles : StyleSet}

theorem styleLetters_of_ne (h : field ≠ "-") : styleLetters field = field.toList := if_neg h

theorem StyleField.contains_iff (h : StyleField field styles) (flag : StyleFlag) :
    styles.contains flag = true ↔ flag.letter ∈ styleLetters field := by
  cases h with
  | unset => exact iff_of_false Bool.false_ne_true List.not_mem_nil
  | run hfield _ hflags =>
    rw [styleLetters_of_ne hfield]
    exact hflags flag

theorem StyleField.exists_flag (h : StyleField field styles) :
    ∀ c ∈ styleLetters field, ∃ flag : StyleFlag, flag.letter = c := by
  cases h with
  | unset => exact fun c hc => absurd hc List.not_mem_nil
  | run hfield hletters =>
    rw [styleLetters_of_ne hfield]
    exact hletters

theorem styleField_of_letters (hletters : ∀ c ∈ styleLetters field, ∃ flag : StyleFlag, flag.letter = c)
    (hflags : ∀ flag, styles.contains flag = true ↔ flag.letter ∈ styleLetters field) : StyleField field styles := by
  by_cases hfield : field = "-"
  · subst hfield
    have hempty : styles = .empty := StyleSet.eq_of_contains fun flag =>
      (hflags flag).trans (iff_of_false List.not_mem_nil Bool.false_ne_true)
    rw [hempty]
    exact .unset
  · rw [styleLetters_of_ne hfield] at hletters hflags
    exact .run hfield hletters hflags

theorem StyleField.of_same_letters (h : StyleField field styles)
    (hsame : ∀ c, c ∈ styleLetters field ↔ c ∈ styleLetters other) : StyleField other styles :=
  styleField_of_letters (fun c hc => h.exists_flag c ((hsame c).mpr hc))
    (fun flag => (h.contains_iff flag).trans (hsame flag.letter))

theorem StyleField.eq_iff {others : StyleSet} (h : StyleField field styles) (h' : StyleField other others) :
    styles = others ↔ ∀ c, c ∈ styleLetters field ↔ c ∈ styleLetters other := by
  constructor
  · rintro rfl c
    have hletter : ∀ flag : StyleFlag, flag.letter ∈ styleLetters field ↔ flag.letter ∈ styleLetters other :=
      fun flag => (h.contains_iff flag).symm.trans (h'.contains_iff flag)
    constructor
    · intro hc
      obtain ⟨flag, rfl⟩ := h.exists_flag c hc
      exact (hletter flag).mp hc
    · intro hc
      obtain ⟨flag, rfl⟩ := h'.exists_flag c hc
      exact (hletter flag).mpr hc
  · intro hsame
    refine StyleSet.eq_of_contains fun flag => ?_
    rw [h.contains_iff, h'.contains_iff, hsame]

end Letters

section Pieces

variable {first second group : String} (hfirst : first ≠ "-") (hsecond : second ≠ "-")
include hfirst hsecond

theorem append_ne_hyphen : first ++ second ≠ "-" := by
  intro happend
  have hlist : first.toList ++ second.toList = ['-'] := by
    rw [← String.toList_append, happend]
    rfl
  rcases List.append_eq_singleton_iff.mp hlist with ⟨-, hhyphen⟩ | ⟨hhyphen, -⟩
  · exact hsecond (String.toList_inj.mp hhyphen)
  · exact hfirst (String.toList_inj.mp hhyphen)

theorem StyleField.append {styles others : StyleSet} (h : StyleField first styles) (h' : StyleField second others) :
    StyleField (first ++ second) (styles.union others) := by
  have hletters : styleLetters (first ++ second) = styleLetters first ++ styleLetters second := by
    rw [styleLetters_of_ne (append_ne_hyphen hfirst hsecond), styleLetters_of_ne hfirst, styleLetters_of_ne hsecond,
      String.toList_append]
  refine styleField_of_letters ?_ fun flag => ?_
  · rw [hletters, List.forall_mem_append]
    exact ⟨h.exists_flag, h'.exists_flag⟩
  · rw [hletters, List.mem_append, ← h.contains_iff, ← h'.contains_iff]
    exact Bool.or_eq_true_iff

omit hsecond in
theorem exists_error_iff : (∃ error : ThemeError α, StyleSet.read first group = .error error) ↔
    ¬ ∀ c ∈ first.toList, ∃ flag : StyleFlag, flag.letter = c := by
  simp only [StyleSet.read_eq_error_iff]
  constructor
  · rintro ⟨error, -, letter, hletter, -⟩
    exact hletter.not_forall
  · intro hunknown
    obtain ⟨letter, hletter⟩ := exists_firstFailing hunknown
    exact ⟨_, hfirst, letter, hletter, rfl⟩

theorem exists_error_append_iff : (∃ error : ThemeError α, StyleSet.read (first ++ second) group = .error error) ↔
    (∃ error : ThemeError α, StyleSet.read first group = .error error) ∨
      ∃ error : ThemeError α, StyleSet.read second group = .error error := by
  rw [exists_error_iff (append_ne_hyphen hfirst hsecond), exists_error_iff hfirst, exists_error_iff hsecond,
    String.toList_append, List.forall_mem_append, not_and_or]

end Pieces

section Order

namespace StyleSet

variable (s : StyleSet)

theorem pairwise_toList : s.toList.Pairwise fun flag later => flag.ctorIdx < later.ctorIdx :=
  List.Pairwise.filter _ (by decide)

theorem nodup_toList : s.toList.Nodup :=
  s.pairwise_toList.imp fun hlt => ne_of_apply_ne StyleFlag.ctorIdx hlt.ne

theorem mem_toList (flag : StyleFlag) : flag ∈ s.toList ↔ s.contains flag = true := by
  rw [toList, List.mem_filter, and_iff_right flag.mem_all]

end StyleSet

end Order

namespace Lua

def enabledNames (attributes : List (String × AttributeValue)) : List String :=
  (attributes.filter fun a => a.2 = .enabled).map Prod.fst

theorem enabledNames_attributes [Scalar α] (s : Styling α) :
    enabledNames (attributes (.styled s)) = s.styles.toList.map StyleFlag.name := by
  have hcolors : ∀ special : Option (Color α), ((if special.isSome then [("sp", AttributeValue.string (colorText special))]
      else []).filter fun a => a.2 = .enabled) = [] := by
    intro special
    cases special <;> rfl
  have hflags : (s.styles.toList.map fun flag => (flag.name, AttributeValue.enabled)).filter (fun a => a.2 = .enabled) =
      s.styles.toList.map fun flag => (flag.name, AttributeValue.enabled) := by
    rw [List.filter_eq_self]
    intro a ha
    obtain ⟨flag, -, rfl⟩ := List.mem_map.mp ha
    rfl
  rw [enabledNames, attributes, List.filter_append, List.filter_append, hcolors, hflags, List.append_nil]
  show (s.styles.toList.map _).map _ = _
  rw [List.map_map]
  rfl

end Lua

namespace Highlight

variable {colors : Table (Color α)} {group value other run : String} {fields : List String}

theorem getD_set_of_ne {place : Nat} (h : place ≠ 2) : (fields.set 2 run).getD place "-" = fields.getD place "-" := by
  rw [List.getD_eq_getElem?_getD, List.getD_eq_getElem?_getD, List.getElem?_set_ne h.symm]

theorem read_of_same_letters {h : Highlight α} (hfields : HasFields value fields)
    (hother : HasFields other (fields.set 2 run))
    (hsame : ∀ c, c ∈ styleLetters (fields.getD 2 "-") ↔ c ∈ styleLetters run)
    (hread : read colors group value = .ok h) : read colors group other = .ok h := by
  have hcount : ¬ (fields = [] ∨ 4 < fields.length) := by
    intro hbad
    rw [read_of_badCount hfields hbad] at hread
    cases hread
  obtain ⟨hne, hshort⟩ := not_or.mp hcount
  have hne' : fields.set 2 run ≠ [] := by simpa using hne
  have hshort' : (fields.set 2 run).length ≤ 4 := by simpa using hshort
  rw [read_of_hasFields hfields hne (Nat.le_of_not_lt hshort)] at hread
  obtain ⟨styling, rfl, hforeground, hbackground, hstyles, hspecial⟩ := readStyled_eq_ok_iff.mp hread
  have hstyles' : StyleField ((fields.set 2 run).getD 2 "-") styling.styles := by
    rw [List.getD_eq_getElem?_getD, List.getElem?_set_self']
    cases hfield : fields[2]? with
    | none =>
      rw [List.getD_eq_getElem?_getD, hfield] at hstyles
      exact hstyles
    | some field => exact hstyles.of_same_letters hsame
  rw [read_of_hasFields hother hne' hshort', readStyled_eq_ok_iff]
  refine ⟨styling, rfl, ?_, ?_, hstyles', ?_⟩
  · rwa [getD_set_of_ne (by decide)]
  · rwa [getD_set_of_ne (by decide)]
  · rwa [getD_set_of_ne (by decide)]

end Highlight

namespace Lua

open Highlight (HasFields)

/-- Style fields that are read give the same flags exactly if the same letters occur in them. A field in two pieces,
neither of which is a hyphen, is refused exactly if one of these is, for its first unknown letter, and gives the flags of
both otherwise. The flags of a field are listed, and so switched on, in the order of their declaration, each once, and
are those of its letters; so the line of a group does not change with the order and number of its style letters. -/
theorem styleFlags_of_letters [Scalar α] (colors : Table (Color α)) (group : String) :
    (∀ field other styles others, StyleSet.read (α := α) field group = .ok styles →
      StyleSet.read (α := α) other group = .ok others →
      (styles = others ↔ ∀ c, c ∈ styleLetters field ↔ c ∈ styleLetters other)) ∧
    (∀ first second, first ≠ "-" → second ≠ "-" →
      ((∃ error, StyleSet.read (α := α) (first ++ second) group = .error error) ↔
        (∃ error, StyleSet.read (α := α) first group = .error error) ∨
          ∃ error, StyleSet.read (α := α) second group = .error error) ∧
      (∀ error, StyleSet.read (α := α) (first ++ second) group = .error error → ∃ letter,
        FirstFailing (fun c => ∃ flag : StyleFlag, flag.letter = c) (first ++ second).toList letter ∧
          error = .unknownStyle letter group) ∧
      ∀ styles others, StyleSet.read (α := α) first group = .ok styles →
        StyleSet.read (α := α) second group = .ok others →
        StyleSet.read (α := α) (first ++ second) group = .ok (styles.union others)) ∧
    (∀ field (styling : Styling α), StyleSet.read (α := α) field group = .ok styling.styles →
      styling.styles.toList.Pairwise (fun flag later => flag.ctorIdx < later.ctorIdx) ∧
      styling.styles.toList.Nodup ∧ (∀ flag, flag ∈ styling.styles.toList ↔ flag.letter ∈ styleLetters field) ∧
      enabledNames (attributes (.styled styling)) = styling.styles.toList.map StyleFlag.name) ∧
    ∀ value other fields run h, HasFields value fields → HasFields other (fields.set 2 run) →
      (∀ c, c ∈ styleLetters (fields.getD 2 "-") ↔ c ∈ styleLetters run) →
      Highlight.read colors group value = .ok h →
      ∃ h', Highlight.read colors group other = .ok h' ∧ highlightLine group h' = highlightLine group h := by
  refine ⟨?_, ?_, ?_, ?_⟩
  · intro field other styles others hread hread'
    exact (StyleSet.read_eq_ok_iff.mp hread).eq_iff (StyleSet.read_eq_ok_iff.mp hread')
  · intro first second hfirst hsecond
    refine ⟨exists_error_append_iff hfirst hsecond, ?_, ?_⟩
    · intro error herror
      exact (StyleSet.read_eq_error_iff.mp herror).2
    · intro styles others hread hread'
      exact StyleSet.read_eq_ok_iff.mpr
        (StyleField.append hfirst hsecond (StyleSet.read_eq_ok_iff.mp hread) (StyleSet.read_eq_ok_iff.mp hread'))
  · intro field styling hread
    have hfield := StyleSet.read_eq_ok_iff.mp hread
    refine ⟨styling.styles.pairwise_toList, styling.styles.nodup_toList, fun flag => ?_,
      enabledNames_attributes styling⟩
    rw [StyleSet.mem_toList, hfield.contains_iff]
  · intro value other fields run h hfields hother hsame hread
    exact ⟨h, Highlight.read_of_same_letters hfields hother hsame hread, rfl⟩

section Witness

private def brightness : Table (Color Rat) := Table.empty.insert "lit" ⟨0, 0, 1⟩

theorem styleFlags_of_letters_bold_italic :
    (∃ styles, StyleSet.read (α := Rat) "bib" "Normal" = .ok styles ∧
      StyleSet.read (α := Rat) "ib" "Normal" = .ok styles ∧ styles.toList = [.italic, .bold] ∧
      StyleSet.read (α := Rat) ("bib" ++ "cu") "Normal" = .ok (styles.union (.ofLetters ['c', 'u']))) ∧
    (∃ error, StyleSet.read (α := Rat) ("b-" ++ "xi") "Normal" = .error error ∧
      ∃ letter, FirstFailing (fun c => ∃ flag : StyleFlag, flag.letter = c) ("b-" ++ "xi").toList letter ∧
        error = .unknownStyle letter "Normal") ∧
    ∃ h h', Highlight.read brightness "Normal" "lit - bib" = .ok h ∧
      Highlight.read brightness "Normal" " lit  - ib" = .ok h' ∧
      highlightLine "Normal" h' = highlightLine "Normal" h := by
  obtain ⟨hequal, hpieces, -, htext⟩ := styleFlags_of_letters brightness "Normal"
  have hfirst : StyleSet.read (α := Rat) "bib" "Normal" = .ok (.ofLetters "bib".toList) := rfl
  have hother : StyleSet.read (α := Rat) "ib" "Normal" = .ok (.ofLetters "ib".toList) := rfl
  have hcurl : StyleSet.read (α := Rat) "cu" "Normal" = .ok (.ofLetters "cu".toList) := rfl
  have hbad : StyleSet.read (α := Rat) "b-" "Normal" = .error (.unknownStyle '-' "Normal") := rfl
  have hletters : ∀ c, c ∈ styleLetters "bib" ↔ c ∈ styleLetters "ib" := by
    intro c
    simp [styleLetters, or_comm]
  have hsame := (hequal _ _ _ _ hfirst hother).mpr hletters
  refine ⟨⟨_, hfirst, ?_, by decide, ?_⟩, ?_, ?_⟩
  · rw [hsame]
    exact hother
  · exact (hpieces "bib" "cu" (by decide) (by decide)).2.2 _ _ hfirst hcurl
  · obtain ⟨hrefused, hnamed, -⟩ := hpieces "b-" "xi" (by decide) (by decide)
    obtain ⟨error, herror⟩ := hrefused.mpr (.inl ⟨_, hbad⟩)
    exact ⟨error, herror, hnamed error herror⟩
  · have hread : Highlight.read brightness "Normal" "lit - bib" =
        .ok (.styled ⟨some ⟨0, 0, 1⟩, none, .ofLetters "bib".toList, none⟩) := rfl
    have hvalue : HasFields "lit - bib" ["lit", "-", "bib"] := Highlight.hasFields_iff.mpr (by decide)
    have hother : HasFields " lit  - ib" ["lit", "-", "ib"] := Highlight.hasFields_iff.mpr (by decide)
    obtain ⟨h', hread', hline⟩ := htext _ _ _ "ib" _ hvalue hother hletters hread
    exact ⟨_, h', hread, hread', hline⟩

end Witness

end Lua

end EditorTheme
