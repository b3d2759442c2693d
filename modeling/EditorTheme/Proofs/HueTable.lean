import EditorTheme.Proofs.Double.Magnitude
import EditorTheme.Proofs.Failure
import EditorTheme.HueTable

/-!
The tables that named values make, and what keeps values from making one. The first value that cannot be added decides: it
is no finite number, or its name is there already.
-/

set_option autoImplicit false
set_option relaxedAutoImplicit false

namespace EditorTheme.HueTable

/-- The integers that are beyond the largest double by half a step or more. -/
def BeyondDoubles (n : Int) : Prop := 2 ^ 1024 ≤ n.natAbs + 2 ^ 970

/-- The values that can be hues. -/
inductive IsHue : Value → Prop
  | int {n : Int} (h : ¬ BeyondDoubles n) : IsHue (.int n)
  | number {x : Float} (h : x.isFinite = true) : IsHue (.number x)

/-- The values that are numbers: integers, truth values not being any, and finite doubles. -/
inductive IsNumber : Value → Prop
  | int (n : Int) : IsNumber (.int n)
  | number {x : Float} (h : x.isFinite = true) : IsNumber (.number x)

inductive Refused (name : String) : Value → Failure Float → Prop
  | tooLarge {n : Int} (h : BeyondDoubles n) : Refused name (.int n) (.hueTooLarge name n)
  | notNumber {value : Value} {failure : Failure Float} (h : ¬ IsNumber value)
      (hshows : Failure.Shows (.invalidEntry "hues" (some name)) value failure) : Refused name value failure

variable {t : HueTable Float} {name : String} {value : Value}

theorem exists_readHue_iff : (∃ x : Float, readHue name value = .ok x) ↔ IsHue value := by
  constructor
  · rintro ⟨x, h⟩
    cases value with
    | int n =>
      refine .int fun hbeyond => ?_
      have hnone : Scalar.ofInt? (α := Float) n = none := (Double.ofInt?_eq_none_iff n).mpr hbeyond
      simp [readHue, hnone] at h
    | number y =>
      simp only [readHue] at h
      split at h
      · next hfinite => exact .number hfinite
      · cases h
    | _ => cases h
  · intro h
    cases h with
    | @int n h =>
      cases hfound : Scalar.ofInt? (α := Float) n with
      | none => exact absurd ((Double.ofInt?_eq_none_iff n).mp hfound) h
      | some x => exact ⟨x, by rw [readHue, hfound]⟩
    | @number x h => exact ⟨Scalar.ofDouble x, by rw [readHue, if_pos h]⟩

theorem readHue_of_not_isNumber (h : ¬ IsNumber value) : (readHue name value : Except (Failure Float) Float) =
    .error (.showing value (.invalidEntry "hues" (some name))) := by
  cases value with
  | int n => exact absurd (.int n) h
  | number x =>
    have hfinite : ¬ x.isFinite = true := fun hfinite => h (.number hfinite)
    rw [readHue, if_neg hfinite]
    exact congrArg Except.error (Failure.showing_value _ (Described.number x)).symm
  | _ => rfl

theorem readHue_eq_error_iff {failure : Failure Float} :
    (readHue name value : Except (Failure Float) Float) = .error failure ↔ Refused name value failure := by
  constructor
  · intro h
    by_cases hnumber : IsNumber value
    · cases hnumber with
      | int n =>
        cases hfound : Scalar.ofInt? (α := Float) n with
        | none =>
          rw [readHue, hfound] at h
          exact Except.error.inj h ▸ .tooLarge ((Double.ofInt?_eq_none_iff n).mp hfound)
        | some x =>
          rw [readHue, hfound] at h
          cases h
      | number hfinite =>
        rw [readHue, if_pos hfinite] at h
        cases h
    · rw [readHue_of_not_isNumber hnumber] at h
      exact .notNumber hnumber (Failure.shows_iff.mpr (Except.error.inj h).symm)
  · rintro (hbeyond | ⟨hnot, hshows⟩)
    · rw [readHue, show Scalar.ofInt? (α := Float) _ = none from (Double.ofInt?_eq_none_iff _).mpr hbeyond]
    · rw [readHue_of_not_isNumber hnot, hshows.showing_eq]

theorem add_eq_ok_iff {t' : HueTable Float} :
    add t name value = .ok t' ↔ name ∉ t.names ∧ ∃ x, readHue name value = .ok x ∧ t.insert name (wrapHue x) = t' := by
  unfold add
  split
  · next hthere =>
    refine iff_of_false (fun h => nomatch h) fun h => h.1 ?_
    exact (t.contains_iff_mem_names name).mp hthere
  · next hnew =>
    rw [t.contains_iff_mem_names name] at hnew
    simp only [bind_eq_ok, pure_eq_ok, hnew, not_false_eq_true, true_and]

theorem add_eq_error_iff {failure : Failure Float} : add t name value = .error failure ↔
    name ∈ t.names ∧ failure = .theme (.duplicateHue name) ∨ name ∉ t.names ∧ Refused name value failure := by
  rw [add, ← t.contains_iff_mem_names name]
  split_ifs with hthere
  · simp [hthere, eq_comm]
  · simp only [bind_eq_error, pure_ne_error, and_false, exists_false, or_false, readHue_eq_error_iff, hthere,
      Bool.false_eq_true, false_and, not_false_eq_true, true_and, false_or]

theorem names_of_add {t' : HueTable Float} (h : add t name value = .ok t') : t'.names = t.names ++ [name] := by
  obtain ⟨hnew, x, -, rfl⟩ := add_eq_ok_iff.mp h
  rw [Table.names_insert, if_neg hnew]

theorem names_of_foldlM {pairs : List (String × Value)} {t' : HueTable Float}
    (h : pairs.foldlM (fun t pair => add t pair.1 pair.2) t = .ok t') : t'.names = t.names ++ pairs.map Prod.fst := by
  induction pairs generalizing t with
  | nil =>
    obtain rfl := pure_eq_ok.mp h
    exact (List.append_nil _).symm
  | cons pair rest ih =>
    rw [List.foldlM_cons] at h
    obtain ⟨next, hnext, hrest⟩ := bind_eq_ok.mp h
    rw [ih hrest, names_of_add hnext, List.append_assoc, List.map_cons, List.singleton_append]

theorem exists_foldlM_iff {pairs : List (String × Value)} :
    (∃ t' : HueTable Float, pairs.foldlM (fun t pair => add t pair.1 pair.2) t = .ok t') ↔
      (t.names ++ pairs.map Prod.fst).Nodup ∧ ∀ pair ∈ pairs, IsHue pair.2 := by
  induction pairs generalizing t with
  | nil =>
    have hdistinct : (t.names ++ []).Nodup := by
      rw [List.append_nil]
      exact t.distinct
    exact iff_of_true ⟨t, rfl⟩ ⟨hdistinct, fun _ h => absurd h List.not_mem_nil⟩
  | cons pair rest ih =>
    have hnames : t.names ++ (pair :: rest).map Prod.fst = t.names ++ [pair.1] ++ rest.map Prod.fst := by
      rw [List.append_assoc, List.map_cons, List.singleton_append]
    rw [List.forall_mem_cons, hnames]
    constructor
    · rintro ⟨t', h⟩
      rw [List.foldlM_cons] at h
      obtain ⟨next, hnext, hrest⟩ := bind_eq_ok.mp h
      obtain ⟨hdistinct, hlater⟩ := ih.mp ⟨t', hrest⟩
      obtain ⟨-, x, hx, -⟩ := add_eq_ok_iff.mp hnext
      exact ⟨names_of_add hnext ▸ hdistinct, exists_readHue_iff.mp ⟨x, hx⟩, hlater⟩
    · rintro ⟨hdistinct, hfirst, hlater⟩
      have hnew : pair.1 ∉ t.names := fun hmem =>
        (List.nodup_append.mp (List.nodup_append.mp hdistinct).1).2.2 pair.1 hmem pair.1 (List.mem_singleton.mpr rfl) rfl
      obtain ⟨x, hx⟩ : ∃ x : Float, readHue pair.1 pair.2 = .ok x := exists_readHue_iff.mpr hfirst
      have hnext : add t pair.1 pair.2 = .ok (t.insert pair.1 (wrapHue x)) := add_eq_ok_iff.mpr ⟨hnew, x, hx, rfl⟩
      rw [← names_of_add hnext] at hdistinct
      obtain ⟨t', hrest⟩ := ih.mpr ⟨hdistinct, hlater⟩
      exact ⟨t', by rw [List.foldlM_cons, bind_of_ok hnext, hrest]⟩

theorem names_of_ofPairs {pairs : List (String × Value)} (h : ofPairs pairs = .ok t) :
    t.names = pairs.map Prod.fst := names_of_foldlM h

theorem exists_ofPairs_iff {pairs : List (String × Value)} :
    (∃ t : HueTable Float, ofPairs pairs = .ok t) ↔ (pairs.map Prod.fst).Nodup ∧ ∀ pair ∈ pairs, IsHue pair.2 :=
  exists_foldlM_iff

/-- The first pair that is not added decides how a table fails: its name is there already, or its value is no hue. -/
theorem ofPairs_eq_error_iff {pairs : List (String × Value)} {failure : Failure Float} :
    (ofPairs pairs : Except (Failure Float) (HueTable Float)) = .error failure ↔
      ∃ before name value after, pairs = before ++ (name, value) :: after ∧ (before.map Prod.fst).Nodup ∧
        (∀ pair ∈ before, IsHue pair.2) ∧ (name ∈ before.map Prod.fst ∧ failure = .theme (.duplicateHue name) ∨
          name ∉ before.map Prod.fst ∧ Refused name value failure) := by
  unfold ofPairs
  rw [foldlM_eq_error_iff]
  constructor
  · rintro ⟨before, ⟨name, value⟩, after, t, rfl, hbefore, hlast⟩
    obtain ⟨hdistinct, hhues⟩ := exists_ofPairs_iff.mp ⟨t, hbefore⟩
    rw [add_eq_error_iff, names_of_ofPairs hbefore] at hlast
    exact ⟨before, name, value, after, rfl, hdistinct, hhues, hlast⟩
  · rintro ⟨before, name, value, after, rfl, hdistinct, hhues, hlast⟩
    obtain ⟨t, ht⟩ := exists_ofPairs_iff.mpr ⟨hdistinct, hhues⟩
    exact ⟨before, (name, value), after, t, rfl, ht, add_eq_error_iff.mpr (by rwa [names_of_ofPairs ht])⟩

end EditorTheme.HueTable
