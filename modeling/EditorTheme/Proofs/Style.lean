import EditorTheme.Proofs.Sequencing
import EditorTheme.Style

/-!
Style fields. A field is read exactly if it is a hyphen or holds letters of flags only, and then it stands for the flags
of its letters; otherwise its first unknown letter is reported.
-/

set_option autoImplicit false
set_option relaxedAutoImplicit false

namespace EditorTheme

namespace StyleFlag

theorem mem_all (flag : StyleFlag) : flag ∈ all := by
  cases flag <;> decide

theorem letter_injective {flag other : StyleFlag} (h : flag.letter = other.letter) : flag = other := by
  revert h
  cases flag <;> cases other <;> decide

theorem ofLetter?_isNone_iff {c : Char} : (ofLetter? c).isNone = true ↔ ¬ ∃ flag : StyleFlag, flag.letter = c := by
  rw [Option.isNone_iff_eq_none, ofLetter?, List.find?_eq_none]
  constructor
  · rintro h ⟨flag, hflag⟩
    exact h flag flag.mem_all (by simpa using hflag)
  · intro h flag _ hflag
    exact h ⟨flag, by simpa using hflag⟩

end StyleFlag

/-- The flags that a style field switches on. -/
inductive StyleField : String → StyleSet → Prop
  | unset : StyleField "-" .empty
  | run {field : String} {styles : StyleSet} (hfield : field ≠ "-")
      (hletters : ∀ c ∈ field.toList, ∃ flag : StyleFlag, flag.letter = c)
      (hflags : ∀ flag : StyleFlag, styles.contains flag = true ↔ flag.letter ∈ field.toList) : StyleField field styles

namespace StyleSet

variable {α : Type} {field group : String}

theorem contains_ofLetters (letters : List Char) (flag : StyleFlag) :
    (ofLetters letters).contains flag = true ↔ flag.letter ∈ letters := List.contains_iff_mem

theorem eq_of_contains {s t : StyleSet} (h : ∀ flag, s.contains flag = true ↔ t.contains flag = true) : s = t :=
  congrArg mk (funext fun flag => Bool.eq_iff_iff.mpr (h flag))

theorem read_eq_ok_iff {styles : StyleSet} :
    (read field group : Except (ThemeError α) StyleSet) = .ok styles ↔ StyleField field styles := by
  unfold read
  split
  · next hfield =>
    subst hfield
    constructor
    · intro h
      obtain rfl := Except.ok.inj h
      exact .unset
    · intro h
      cases h with
      | unset => rfl
      | run hfield => exact absurd rfl hfield
  · next hfield =>
    cases hunknown : field.toList.find? fun c => (StyleFlag.ofLetter? c).isNone with
    | some c =>
      have hfirst := (find?_eq_some_iff_firstFailing fun _ => StyleFlag.ofLetter?_isNone_iff).mp hunknown
      constructor
      · intro h
        cases h
      · intro h
        cases h with
        | unset => exact absurd rfl hfield
        | run _ hletters => exact absurd hletters hfirst.not_forall
    | none =>
      have hletters := (find?_eq_none_iff_forall fun _ => StyleFlag.ofLetter?_isNone_iff).mp hunknown
      constructor
      · intro h
        obtain rfl := Except.ok.inj h
        exact .run hfield hletters (contains_ofLetters field.toList)
      · intro h
        cases h with
        | unset => exact absurd rfl hfield
        | run _ _ hflags =>
          refine congrArg Except.ok (eq_of_contains fun flag => ?_)
          rw [contains_ofLetters, hflags]

theorem read_eq_error_iff {error : ThemeError α} :
    read field group = .error error ↔ field ≠ "-" ∧ ∃ letter,
      FirstFailing (fun c => ∃ flag : StyleFlag, flag.letter = c) field.toList letter ∧
        error = .unknownStyle letter group := by
  simp only [← find?_eq_some_iff_firstFailing fun _ => StyleFlag.ofLetter?_isNone_iff]
  unfold read
  split
  · next hfield =>
    constructor
    · intro h
      cases h
    · rintro ⟨hne, -⟩
      exact absurd hfield hne
  · next hfield =>
    cases field.toList.find? fun c => (StyleFlag.ofLetter? c).isNone with
    | some c => simp [hfield, eq_comm]
    | none => simp

end StyleSet

end EditorTheme
