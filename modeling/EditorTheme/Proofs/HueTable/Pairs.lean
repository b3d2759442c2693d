import EditorTheme.Proofs.Double.Order
import EditorTheme.Proofs.Expression.Evaluation
import EditorTheme.Proofs.HueTable

/-!
Hue tables made of pairs. The table of a list of pairs has their names in their order, each with the hue of its own
value, and nothing else; of the pairs that cannot be added the leftmost is reported, a repeated name before a bad value.
-/

set_option autoImplicit false
set_option relaxedAutoImplicit false

namespace EditorTheme.HueTable

/-- The double that a number stands for. -/
inductive Gives : Value → Float → Prop
  | int {n : Int} {x : Float} (h : Scalar.ofInt? n = some x) : Gives (.int n) x
  | number {x : Float} (h : x.isFinite = true) : Gives (.number x) x

/-- An entry has the name of a pair and the hue of its value. -/
structure Enters (pair : String × Value) (entry : String × Float) : Prop where
  name : entry.1 = pair.1
  hue : ∃ x, Gives pair.2 x ∧ entry.2 = wrapHue x

/-- What a table of pairs answers. -/
structure Tabulates (pairs : List (String × Value)) (t : HueTable Float) : Prop where
  size : t.size = pairs.length
  contains_iff : ∀ name, t.contains name = true ↔ ∃ hue, t.lookup name = .ok hue
  lookup_iff : ∀ name, (∃ hue, t.lookup name = .ok hue) ↔ name ∈ pairs.map Prod.fst
  lookup_eq : ∀ name value, (name, value) ∈ pairs →
    ∃ x, Gives value x ∧ t.lookup name = .ok (wrapHue x) ∧ 0 ≤ wrapHue x ∧ wrapHue x < 360
  unknown : ∀ name, name ∉ pairs.map Prod.fst → t.lookup name = .error (.unknownHue name)

/-- What is wrong with a pair behind others: its name is one of theirs, or else its value is no number. -/
inductive Offends (before : List (String × Value)) : String × Value → ThemeError Float → Prop
  | name {name : String} {value : Value} (h : name ∈ before.map Prod.fst) :
      Offends before (name, value) (.duplicateHue name)
  | value {name : String} {shown : Described} (hnew : name ∉ before.map Prod.fst) (h : ¬ IsNumber shown.value) :
      Offends before (name, shown.value) (.invalidEntry "hues" (some name) shown)

/-- The pair that stands first among those that cannot be added, with what is wrong with it. -/
structure Leftmost (pairs before : List (String × Value)) (pair : String × Value) (fault : ThemeError Float) : Prop where
  split : ∃ after, pairs = before ++ pair :: after
  distinct : (before.map Prod.fst).Nodup
  numbers : ∀ earlier ∈ before, IsNumber earlier.2
  offends : Offends before pair fault

section Values

variable {name : String} {value : Value} {x : Float}

theorem Gives.isFinite (h : Gives value x) : x.isFinite = true := by
  cases h with
  | @int n x h =>
    simp only [Scalar.ofInt?, Double.ofInt?] at h
    split_ifs at h with hfinite
    obtain rfl := Option.some.inj h
    exact hfinite
  | number h => exact h

theorem readHue_eq_ok_iff : readHue name value = .ok x ↔ Gives value x := by
  constructor
  · intro h
    cases value with
    | int n =>
      simp only [readHue] at h
      split at h
      · next found hfound =>
        obtain rfl := Except.ok.inj h
        exact .int hfound
      · cases h
    | number y =>
      simp only [readHue] at h
      split_ifs at h with hfinite
      obtain rfl := Except.ok.inj h
      exact .number hfinite
    | _ => cases h
  · rintro (h | h)
    · rw [readHue, h]
    · exact if_pos h

end Values

section Building

variable {pairs : List (String × Value)} {t t' : HueTable Float}

theorem entries_of_add {pair : String × Value} (h : add t pair.1 pair.2 = .ok t') :
    ∃ entry, t'.entries = t.entries ++ [entry] ∧ Enters pair entry := by
  obtain ⟨hnew, x, hread, rfl⟩ := add_eq_ok_iff.mp h
  refine ⟨(pair.1, wrapHue x), Table.entries_insert_of_not_mem hnew (wrapHue x), rfl, x, ?_, rfl⟩
  exact readHue_eq_ok_iff.mp hread

theorem entries_of_foldlM (h : pairs.foldlM (fun t pair => add t pair.1 pair.2) t = .ok t') :
    ∃ added, t'.entries = t.entries ++ added ∧ List.Forall₂ Enters pairs added := by
  induction pairs generalizing t with
  | nil =>
    obtain rfl := pure_eq_ok.mp h
    exact ⟨[], (List.append_nil _).symm, .nil⟩
  | cons pair rest ih =>
    rw [List.foldlM_cons] at h
    obtain ⟨next, hnext, hrest⟩ := bind_eq_ok.mp h
    obtain ⟨entry, hentry, henters⟩ := entries_of_add hnext
    obtain ⟨added, hadded, hall⟩ := ih hrest
    refine ⟨entry :: added, ?_, .cons henters hall⟩
    rw [hadded, hentry, List.append_assoc, List.singleton_append]

theorem entries_of_ofPairs (h : ofPairs pairs = .ok t) : List.Forall₂ Enters pairs t.entries := by
  obtain ⟨added, hadded, hall⟩ := entries_of_foldlM h
  rwa [hadded]

theorem tabulates_of_ofPairs (h : ofPairs pairs = .ok t) : Tabulates pairs t := by
  have hentries := entries_of_ofPairs h
  have hnames := names_of_ofPairs h
  have hfound : ∀ name, (∃ hue, t.lookup name = .ok hue) ↔ name ∈ t.names := by
    intro name
    simp only [lookup_eq_ok_iff, ← Table.mem_names_iff]
  constructor
  · exact hentries.length_eq.symm
  · intro name
    rw [hfound, Table.contains_iff_mem_names]
  · intro name
    rw [hfound, hnames]
  · intro name value hmem
    obtain ⟨⟨entryName, hue⟩, hentry, henters⟩ := exists_mem_of_forall₂ hentries hmem
    obtain rfl : entryName = name := henters.name
    obtain ⟨x, hgives, rfl⟩ := henters.hue
    refine ⟨x, hgives, ?_, wrapHue_mem hgives.isFinite⟩
    exact (lookup_eq_ok_iff t entryName (wrapHue x)).mpr ((t.mem_entries_iff entryName (wrapHue x)).mp hentry)
  · intro name hnot
    rw [← hnames] at hnot
    rw [lookup, Table.find?_eq_none hnot]

end Building

section Faults

variable {pairs : List (String × Value)} {t : HueTable Float}

theorem isHue_iff_isNumber {value : Value} (h : ∀ n, value = .int n → ¬ BeyondDoubles n) :
    IsHue value ↔ IsNumber value := by
  constructor
  · rintro (hn | hx)
    · exact .int _
    · exact .number hx
  · rintro (n | hx)
    · exact .int (h n rfl)
    · exact .number hx

theorem writable_of_not_beyondDoubles {value : Value} (h : ∀ n, value.Holds n → ¬ BeyondDoubles n) : value.Writable := by
  intro n hn
  have hbelow : n.natAbs < 2 ^ 1024 := (Nat.le_add_right _ _).trans_lt (Nat.not_le.mp (h n hn))
  have hdigits : ∀ k ≤ Value.digitLimit, 2 ^ k ≤ 10 ^ Value.digitLimit := fun k hk =>
    (Nat.pow_le_pow_left (by decide) k).trans (Nat.pow_le_pow_right (by decide) hk)
  exact hbelow.trans_le (hdigits 1024 (by decide))

theorem ofPairs_eq_error_iff_leftmost (hints : ∀ pair ∈ pairs, ∀ n, pair.2.Holds n → ¬ BeyondDoubles n)
    {failure : Failure Float} :
    ofPairs pairs = .error failure ↔ ∃ before pair fault, Leftmost pairs before pair fault ∧ failure = .theme fault := by
  have hnumbers : ∀ pair ∈ pairs, (IsHue pair.2 ↔ IsNumber pair.2) := by
    rintro ⟨name, value⟩ hmem
    exact isHue_iff_isNumber fun n hn => hints (name, value) hmem n (hn ▸ .int n)
  rw [ofPairs_eq_error_iff]
  constructor
  · rintro ⟨before, name, value, after, rfl, hdistinct, hhues, hlast⟩
    have hsound : ∀ earlier ∈ before, IsNumber earlier.2 := fun earlier hearlier =>
      (hnumbers earlier (List.mem_append_left _ hearlier)).mp (hhues earlier hearlier)
    rcases hlast with ⟨hthere, rfl⟩ | ⟨hnew, hrefused⟩
    · exact ⟨before, (name, value), _, ⟨⟨after, rfl⟩, hdistinct, hsound, .name hthere⟩, rfl⟩
    · have hvalue : ∀ n, value.Holds n → ¬ BeyondDoubles n := hints (name, value) (by simp)
      cases hrefused with
      | tooLarge hbeyond => exact absurd hbeyond (hvalue _ (.int _))
      | notNumber hnot hshows =>
        cases hshows with
        | fault shown => exact ⟨before, (name, shown.value), _, ⟨⟨after, rfl⟩, hdistinct, hsound, .value hnew hnot⟩, rfl⟩
        | integerTooLong hmem hlong =>
          exact absurd (writable_of_not_beyondDoubles hvalue _ hmem) (Nat.not_lt.mpr hlong)
  · rintro ⟨before, ⟨name, value⟩, fault, ⟨⟨after, rfl⟩, hdistinct, hsound, hoffends⟩, rfl⟩
    have hhues : ∀ earlier ∈ before, IsHue earlier.2 := fun earlier hearlier =>
      (hnumbers earlier (List.mem_append_left _ hearlier)).mpr (hsound earlier hearlier)
    refine ⟨before, name, value, after, rfl, hdistinct, hhues, ?_⟩
    cases hoffends with
    | name hthere => exact .inl ⟨hthere, rfl⟩
    | @value _ shown hnew hvalue => exact .inr ⟨hnew, .notNumber hvalue (.fault shown)⟩

end Faults

/-- Pairs whose integers have doubles make a table exactly if their names differ and their values are numbers. The table
answers for each name with the hue of its own value; otherwise the leftmost pair that cannot be added is reported. -/
theorem ofPairs_tabulates {pairs : List (String × Value)}
    (hints : ∀ pair ∈ pairs, ∀ n, pair.2.Holds n → ¬ BeyondDoubles n) :
    ((∃ t : HueTable Float, ofPairs pairs = .ok t) ↔
      (pairs.map Prod.fst).Nodup ∧ ∀ pair ∈ pairs, IsNumber pair.2) ∧
    (∀ t : HueTable Float, ofPairs pairs = .ok t → Tabulates pairs t) ∧
    ∀ failure : Failure Float, ofPairs pairs = .error failure ↔
      ∃ before pair fault, Leftmost pairs before pair fault ∧ failure = .theme fault := by
  refine ⟨?_, fun t ht => tabulates_of_ofPairs ht, fun failure => ofPairs_eq_error_iff_leftmost hints⟩
  rw [exists_ofPairs_iff]
  refine and_congr_right fun _ => forall₂_congr fun pair hmem => ?_
  exact isHue_iff_isNumber fun n hn => hints pair hmem n (hn ▸ .int n)

section Witness

private def circled : List (String × Value) := [("over", .int 370), ("under", .number (-10)), ("full", .int 360)]

/-- The second pair repeats a name, and its value is bad as well; the third pair has a bad value. -/
private def repeated : List (String × Value) := [("over", .int 370), ("over", .bool true), ("none", .list [.int 5])]

private theorem not_beyondDoubles_of_le {n : Int} (h : n.natAbs ≤ 370) : ¬ BeyondDoubles n := by
  have hbound : 370 + 2 ^ 970 < 2 ^ 1024 := by decide +kernel
  unfold BeyondDoubles
  omega

theorem ofPairs_tabulates_circled :
    (∃ t : HueTable Float, ofPairs circled = .ok t ∧ t.size = 3 ∧ t.lookup "azure" = .error (.unknownHue "azure") ∧
      ∃ hue, t.lookup "under" = .ok hue ∧ 0 ≤ hue ∧ hue < 360) ∧
    (ofPairs repeated : Except (Failure Float) (HueTable Float)) = .error (.theme (.duplicateHue "over")) := by
  have hcircled : ∀ pair ∈ circled, ∀ n, pair.2.Holds n → ¬ BeyondDoubles n := by
    simp only [circled, List.forall_mem_cons]
    refine ⟨?_, ?_, ?_, by simp⟩
    · rintro _ ⟨⟩
      exact not_beyondDoubles_of_le (by decide)
    · rintro _ ⟨⟩
    · rintro _ ⟨⟩
      exact not_beyondDoubles_of_le (by decide)
  have hrepeated : ∀ pair ∈ repeated, ∀ n, pair.2.Holds n → ¬ BeyondDoubles n := by
    simp only [repeated, List.forall_mem_cons]
    refine ⟨?_, ?_, ?_, by simp⟩
    · rintro _ ⟨⟩
      exact not_beyondDoubles_of_le (by decide)
    · rintro _ ⟨⟩
    · rintro _ (_ | ⟨hmem, hn⟩)
      obtain rfl := List.mem_singleton.mp hmem
      cases hn
      exact not_beyondDoubles_of_le (by decide)
  obtain ⟨hexists, htabulates, -⟩ := ofPairs_tabulates hcircled
  obtain ⟨-, -, hfails⟩ := ofPairs_tabulates hrepeated
  have hnumbers : ∀ pair ∈ circled, IsNumber pair.2 := by
    simp only [circled, List.forall_mem_cons]
    exact ⟨.int 370, .number (by decide), .int 360, by simp⟩
  obtain ⟨t, ht⟩ := hexists.mpr ⟨by decide, hnumbers⟩
  have htable := htabulates t ht
  obtain ⟨x, -, hunder, hrange⟩ := htable.lookup_eq "under" (.number (-10)) (by simp [circled])
  refine ⟨⟨t, ht, htable.size, htable.unknown "azure" (by decide), wrapHue x, hunder, hrange⟩, ?_⟩
  have hrepeats : Offends [("over", .int 370)] ("over", .bool true) (.duplicateHue "over") := .name (by decide)
  refine (hfails _).mpr ⟨[("over", .int 370)], ("over", .bool true), _, ⟨⟨_, rfl⟩, by decide, ?_, hrepeats⟩, rfl⟩
  intro earlier hearlier
  obtain rfl := List.mem_singleton.mp hearlier
  exact .int 370

end Witness

end EditorTheme.HueTable
