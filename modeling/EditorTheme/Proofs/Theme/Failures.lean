import EditorTheme.CommandLine.Run
import EditorTheme.Proofs.HueTable
import EditorTheme.Proofs.Theme.Depth

/-!
How compilations end. Every failure is a fault of the theme, which the command reports before it exits with code 1, but
for three causes that no theme error describes: a hue that is an integer beyond the doubles, an integer with too many
digits in a value that a fault would show, and values or references that are deeper than an interpreter permits.
-/

set_option autoImplicit false
set_option relaxedAutoImplicit false

namespace EditorTheme.Theme

open HueTable (IsHue IsNumber Refused BeyondDoubles)
open ThemeDocument (Field)

/-- All that is read before the hues is in order, and so are the hues before this one. -/
def ReachesHue (data : List (String × Value)) (name : String) (value : Value) : Prop :=
  ∃ d, ThemeDocument.Holds data d ∧
    (∃ background, (Background.read d.background : Except (ThemeError Float) Background) = .ok background) ∧
    ∃ before after, d.hues = before ++ (name, value) :: after ∧ (before.map Prod.fst).Nodup ∧
      (∀ hue ∈ before, IsHue hue.2) ∧ name ∉ before.map Prod.fst

/-- The first hue that cannot be added is an integer beyond the doubles. -/
def HueTooLarge (data : List (String × Value)) (name : String) (n : Int) : Prop :=
  ReachesHue data name (.int n) ∧ BeyondDoubles n

/-- What the first fault would show holds an integer with too many digits: the value of a field that is not in order, or
a hue that is no number. -/
inductive IntegerTooLong (data : List (String × Value)) : Prop
  | field {field : Field} {name : Option String} {value : Value}
      (hfirst : FirstFailing (Field.Sound data) Field.all field) (hblames : field.Blames data name value)
      (hlong : ¬ value.Writable) : IntegerTooLong data
  | hue {name : String} {value : Value} (h : ReachesHue data name value) (hnot : ¬ IsNumber value)
      (hlong : ¬ value.Writable) : IntegerTooLong data

def isFaulty {α β : Type} : Except (Failure α) β → Bool
  | .error (.theme _) => true
  | _ => false

theorem exists_of_isFaulty {α β : Type} {r : Except (Failure α) β} (h : isFaulty r = true) :
    ∃ e, r = .error (.theme e) := by
  unfold isFaulty at h
  split at h
  · next e => exact ⟨e, rfl⟩
  · cases h

section Outcome

variable {d : ThemeDocument} {data : List (String × Value)} {name : String} {n : Int} {failure : Failure Float}

/-- The steps of a compilation other than the hues fail with faults of the theme only. -/
theorem compile_eq_error (h : compile d = .error failure) :
    (∃ e, failure = .theme e) ∨
    (∃ background, (Background.read d.background : Except (ThemeError Float) Background) = .ok background) ∧
      HueTable.ofPairs d.hues = .error failure := by
  unfold compile at h
  rcases bind_eq_error.mp h with hbackground | ⟨background, hbackground, h⟩
  · obtain ⟨e, -, rfl⟩ := fault_eq_error_iff.mp hbackground
    exact .inl ⟨e, rfl⟩
  rcases bind_eq_error.mp h with hhues | ⟨hues, -, h⟩
  · exact .inr ⟨⟨background, fault_eq_ok_iff.mp hbackground⟩, hhues⟩
  left
  rcases bind_eq_error.mp h with hcolors | ⟨colors, -, h⟩
  · obtain ⟨e, -, rfl⟩ := fault_eq_error_iff.mp hcolors
    exact ⟨e, rfl⟩
  rcases bind_eq_error.mp h with hhighlights | ⟨highlights, -, h⟩
  · obtain ⟨e, -, rfl⟩ := fault_eq_error_iff.mp hhighlights
    exact ⟨e, rfl⟩
  rcases bind_eq_error.mp h with hglobals | ⟨globals, -, h⟩
  · obtain ⟨e, -, rfl⟩ := fault_eq_error_iff.mp hglobals
    exact ⟨e, rfl⟩
  · exact absurd h pure_ne_error

theorem compile_eq_error_iff (hnot : ∀ e, failure ≠ .theme e) :
    (compile d : Except (Failure Float) (Theme Float)) = .error failure ↔
      (∃ background, (Background.read d.background : Except (ThemeError Float) Background) = .ok background) ∧
        (HueTable.ofPairs d.hues : Except (Failure Float) (HueTable Float)) = .error failure := by
  constructor
  · intro h
    rcases compile_eq_error h with ⟨e, he⟩ | hhues
    · exact absurd he (hnot e)
    · exact hhues
  · rintro ⟨⟨background, hbackground⟩, hhues⟩
    rw [compile, bind_of_ok (fault_eq_ok_iff.mpr hbackground)]
    exact bind_of_error hhues _

/-- What is no fault of the theme is found where the fields are read, or at the first hue that is refused. -/
theorem ofData_eq_error_iff (hnot : ∀ e, failure ≠ .theme e) :
    (ofData data : Except (Failure Float) (Theme Float)) = .error failure ↔
      (ThemeDocument.ofData data : Except (Failure Float) ThemeDocument) = .error failure ∨
      ∃ name value, ReachesHue data name value ∧ Refused name value failure := by
  unfold ofData ReachesHue
  rw [bind_eq_error]
  refine or_congr_right ⟨?_, ?_⟩
  · rintro ⟨d, hread, hcompile⟩
    obtain ⟨hbackground, hhues⟩ := (compile_eq_error_iff hnot).mp hcompile
    obtain ⟨before, name, value, after, hsplit, hdistinct, hbefore, hlast⟩ := HueTable.ofPairs_eq_error_iff.mp hhues
    rcases hlast with ⟨-, hduplicate⟩ | ⟨hnew, hrefused⟩
    · exact absurd hduplicate (hnot _)
    · exact ⟨name, value, ⟨d, ThemeDocument.ofData_eq_ok_iff.mp hread, hbackground, before, after, hsplit, hdistinct,
        hbefore, hnew⟩, hrefused⟩
  · rintro ⟨name, value, ⟨d, hholds, hbackground, before, after, hsplit, hdistinct, hbefore, hnew⟩, hrefused⟩
    refine ⟨d, ThemeDocument.ofData_eq_ok_iff.mpr hholds, (compile_eq_error_iff hnot).mpr ⟨hbackground, ?_⟩⟩
    exact HueTable.ofPairs_eq_error_iff.mpr
      ⟨before, name, value, after, hsplit, hdistinct, hbefore, .inr ⟨hnew, hrefused⟩⟩

theorem fields_eq_error (h : (ThemeDocument.ofData data : Except (Failure Float) ThemeDocument) = .error failure) :
    (∃ e, failure = .theme e) ∨ failure = .integerTooLong := by
  obtain ⟨field, name, value, -, -, hshows⟩ := ThemeDocument.ofData_eq_error_iff.mp h
  cases hshows with
  | fault d => exact .inl ⟨_, rfl⟩
  | integerTooLong _ _ => exact .inr rfl

theorem ofData_eq_tooLarge_iff :
    (ofData data : Except (Failure Float) (Theme Float)) = .error (.hueTooLarge name n) ↔ HueTooLarge data name n := by
  have hnot : ∀ e : ThemeError Float, Failure.hueTooLarge name n ≠ .theme e := by simp
  rw [ofData_eq_error_iff hnot]
  constructor
  · rintro (hfields | ⟨other, value, hreaches, hrefused⟩)
    · rcases fields_eq_error hfields with ⟨e, he⟩ | he
      · cases he
      · cases he
    · cases hrefused with
      | tooLarge h => exact ⟨hreaches, h⟩
      | notNumber _ hshows => cases hshows
  · rintro ⟨hreaches, hbeyond⟩
    exact .inr ⟨name, .int n, hreaches, .tooLarge hbeyond⟩

theorem shows_integerTooLong_iff {fault : Described → ThemeError Float} {value : Value} :
    Failure.Shows fault value .integerTooLong ↔ ¬ value.Writable := by
  rw [Failure.shows_iff, eq_comm, Failure.showing_eq_integerTooLong_iff]

theorem ofData_eq_integerTooLong_iff :
    (ofData data : Except (Failure Float) (Theme Float)) = .error .integerTooLong ↔ IntegerTooLong data := by
  have hnot : ∀ e : ThemeError Float, Failure.integerTooLong ≠ .theme e := by simp
  rw [ofData_eq_error_iff hnot, ThemeDocument.ofData_eq_error_iff]
  constructor
  · rintro (⟨field, name, value, hfirst, hblames, hshows⟩ | ⟨name, value, hreaches, hrefused⟩)
    · exact .field hfirst hblames (shows_integerTooLong_iff.mp hshows)
    · cases hrefused with
      | notNumber hnot hshows => exact .hue hreaches hnot (shows_integerTooLong_iff.mp hshows)
  · intro h
    cases h with
    | field hfirst hblames hlong => exact .inl ⟨_, _, _, hfirst, hblames, shows_integerTooLong_iff.mpr hlong⟩
    | hue hreaches hnot hlong => exact .inr ⟨_, _, hreaches, .notNumber hnot (shows_integerTooLong_iff.mpr hlong)⟩

theorem ofData_ne_notUtf8 : (ofData data : Except (Failure Float) (Theme Float)) ≠ .error .notUtf8 := by
  have hnot : ∀ e : ThemeError Float, Failure.notUtf8 ≠ .theme e := by simp
  rw [ne_eq, ofData_eq_error_iff hnot]
  rintro (hfields | ⟨name, value, -, hrefused⟩)
  · rcases fields_eq_error hfields with ⟨e, he⟩ | he
    · cases he
    · cases he
  · cases hrefused with
    | notNumber _ hshows => cases hshows

end Outcome

section Command

open CommandLine

variable {tree : FileTree} {arguments : List String} {r : Request} {data : List (String × Value)}

/-- The command is asked for a theme file that holds the given values. -/
structure Asks (tree : FileTree) (arguments : List String) (r : Request) (data : List (String × Value)) : Prop where
  request : Request.read arguments = .ok r
  file : (ThemeFile.readData r.filename (tree.read? (FilePath.normalized r.filename)) :
    Except (Failure Float) (List (String × Value))) = .ok data

theorem load_of_readData (tree : FileTree) (path : String)
    (h : (ThemeFile.readData path (tree.read? (FilePath.normalized path)) :
      Except (Failure Float) (List (String × Value))) = .ok data) :
    (ThemeFile.load tree path : Except (Failure Float) ThemeDocument) = ThemeDocument.ofData data :=
  bind_of_ok h _

theorem Asks.run_of_error (h : Asks tree arguments r data) {failure : Failure Float}
    (hfailed : (ofData data : Except (Failure Float) (Theme Float)) = .error failure) :
    ∃ notes, run tree arguments = failed tree r notes failure := by
  have hrun : run tree arguments = runRequest tree r := by
    rw [run, h.request]
  rw [hrun]
  unfold runRequest
  rw [load_of_readData tree r.filename h.file]
  rcases bind_eq_error.mp hfailed with hread | ⟨d, hread, hcompile⟩
  · exact ⟨[], by rw [hread]⟩
  · exact ⟨notes Float d, by rw [hread]; simp only [hcompile]⟩

/-- The command reports a fault: the tree is as it was, the message ends the errors, and the exit code is 1. -/
structure Reports (tree : FileTree) (r : Request) (e : ThemeError Float) (report : Report) : Prop where
  ending : report.ending = .exit 1
  errors : ∃ notes, report.errors = noteLines r notes ++ "error: " ++ e.message ++ "\n"
  tree : report.tree = tree

theorem reports_failed (notes : List Note) (e : ThemeError Float) : Reports tree r e (failed tree r notes (.theme e)) :=
  ⟨rfl, ⟨notes, rfl⟩, rfl⟩

/-- A compilation and the command end with something that is no fault of the theme. -/
structure BreaksOff (depths : Raising.Depths) (data : List (String × Value)) (failure : Failure Float)
    (cause : Interruption) : Prop where
  compilation : (ofData data : Except (Failure Float) (Theme Float)) = .error failure
  raising : (Raising.ofData depths data : Except (Raising.Exception Float) (Theme Float)) =
    .error (Raising.exceptionOf failure)
  command : ∀ tree arguments r, Asks tree arguments r data → (run tree arguments).ending = .interrupted cause

theorem breaksOff_of_error {depths : Raising.Depths} (hdepths : ¬ Raising.Exceeds Float depths data)
    {failure : Failure Float} (h : (ofData data : Except (Failure Float) (Theme Float)) = .error failure)
    {cause : Interruption} (hcause : interruptionOf failure = some cause) : BreaksOff depths data failure cause where
  compilation := h
  raising := by
    rw [(Raising.ofData_agrees depths data).eq hdepths, h]
    rfl
  command tree arguments r hasks := by
    obtain ⟨notes, hrun⟩ := hasks.run_of_error h
    rw [hrun]
    unfold failed
    simp only [hcause]

/-- Within the permitted depths a compilation yields a theme, or a fault of the theme that the command reports, unless a
hue is too large or an integer too long, which breaks both off. Written with operations that can raise, it raises nothing
else. Beyond the permitted depths, the one thing more that it may raise is that they are exceeded; and whatever depths
are permitted, there are themes for which it does. -/
theorem ofData_outcome (depths : Raising.Depths) (data : List (String × Value)) :
    (¬ Raising.Exceeds Float depths data →
      (∀ name n, HueTooLarge data name n → BreaksOff depths data (.hueTooLarge name n) .hueTooLarge) ∧
      (IntegerTooLong data → BreaksOff depths data .integerTooLong .integerTooLong) ∧
      ((¬ ∃ name n, HueTooLarge data name n) → ¬ IntegerTooLong data →
        (∃ t : Theme Float, ofData data = .ok t ∧ Raising.ofData depths data = .ok t) ∨
        ∃ e : ThemeError Float, (ofData data : Except (Failure Float) (Theme Float)) = .error (.theme e) ∧
          (Raising.ofData depths data : Except (Raising.Exception Float) (Theme Float)) = .error (.theme e) ∧
          ∀ tree arguments r, Asks tree arguments r data → Reports tree r e (run tree arguments))) ∧
    (Raising.Exceeds Float depths data →
      (Raising.ofData depths data : Except (Raising.Exception Float) (Theme Float)) =
          (ofData data : Except (Failure Float) (Theme Float)).mapError Raising.exceptionOf ∨
        (Raising.ofData depths data : Except (Raising.Exception Float) (Theme Float)) = .error .tooDeep) ∧
    ∃ other : List (String × Value), (∃ t : Theme Float, ofData other = .ok t) ∧
      (Raising.ofData depths other : Except (Raising.Exception Float) (Theme Float)) = .error .tooDeep := by
  have hagrees := Raising.ofData_agrees (α := Float) depths data
  refine ⟨fun hdepths => ⟨fun name n hlarge => ?_, fun hlong => ?_, fun hlarge hlong => ?_⟩, fun _ => ?_,
    exists_tooDeep depths⟩
  · exact breaksOff_of_error hdepths (ofData_eq_tooLarge_iff.mpr hlarge) rfl
  · exact breaksOff_of_error hdepths (ofData_eq_integerTooLong_iff.mpr hlong) rfl
  · have hraising := hagrees.eq hdepths
    cases hend : (ofData data : Except (Failure Float) (Theme Float)) with
    | ok t =>
      rw [hend] at hraising
      exact .inl ⟨t, rfl, hraising⟩
    | error failure =>
      rw [hend] at hraising
      cases failure with
      | theme e =>
        refine .inr ⟨e, rfl, hraising, fun tree arguments r hasks => ?_⟩
        obtain ⟨notes, hrun⟩ := hasks.run_of_error hend
        exact hrun ▸ reports_failed notes e
      | hueTooLarge name n => exact absurd ⟨name, n, ofData_eq_tooLarge_iff.mp hend⟩ hlarge
      | notUtf8 => exact absurd hend ofData_ne_notUtf8
      | integerTooLong => exact absurd (ofData_eq_integerTooLong_iff.mp hend) hlong
  · exact hagrees.imp_right And.right

/-- A theme with one hue, given as an integer. -/
def withHue (n : Int) : List (String × Value) :=
  [("name", .text "t"), ("background", .text "dark"), ("colors", .table [("a", .text "#336699")]),
    ("hues", .table [("h", .int n)])]

theorem hueTooLarge_withHue {n : Int} (h : BeyondDoubles n) : HueTooLarge (withHue n) "h" n := by
  have hread : (ThemeDocument.ofData (withHue n) : Except (Failure Float) ThemeDocument) =
      .ok ⟨"t", "dark", [("a", "#336699")], [("h", .int n)], [], []⟩ := by rfl
  have hbackground : (Background.read "dark" : Except (ThemeError Float) Background) = .ok .dark := by rfl
  exact ⟨⟨_, ThemeDocument.ofData_eq_ok_iff.mp hread, ⟨.dark, hbackground⟩, [], [], rfl, List.nodup_nil,
    fun _ hmem => absurd hmem List.not_mem_nil, List.not_mem_nil⟩, h⟩

theorem beyondDoubles_pow {k : Nat} (h : 400 ≤ k) : BeyondDoubles (10 ^ k) := by
  have hnat : (10 ^ k : Int).natAbs = 10 ^ k := Int.natAbs_pow 10 k
  have hpow : (2 : Nat) ^ 1024 ≤ 10 ^ k :=
    calc (2 : Nat) ^ 1024 ≤ 2 ^ (3 * k) := pow_le_pow_right₀ one_le_two (by omega)
      _ = (2 ^ 3) ^ k := pow_mul 2 3 k
      _ ≤ 10 ^ k := pow_le_pow_left₀ (Nat.zero_le _) (by norm_num) k
  exact Nat.le_add_right_of_le (hpow.trans_eq hnat.symm)

theorem withHue_fails_otherwise :
    ¬ ((∃ t : Theme Float, ofData (withHue (10 ^ 400)) = .ok t) ∨
      ∃ e : ThemeError Float, (ofData (withHue (10 ^ 400)) : Except (Failure Float) (Theme Float)) = .error (.theme e)) := by
  have hend := ofData_eq_tooLarge_iff.mpr (hueTooLarge_withHue (beyondDoubles_pow le_rfl))
  rw [hend]
  rintro (⟨t, ht⟩ | ⟨e, he⟩)
  · cases ht
  · cases he

def duskFolder : FileTree where
  files := [(["theme.toml"], .text "name = \"t\"\nbackground = \"dusk\"\n[colors]\n")]
  folders := []
  current := []

theorem exists_asks_duskFolder : ∃ data e, Asks duskFolder ["theme.toml"] ⟨"theme.toml", none, none, false, false⟩ data ∧
    (ofData data : Except (Failure Float) (Theme Float)) = .error (.theme e) := by
  have hrequest : Request.read ["theme.toml"] = .ok ⟨"theme.toml", none, none, false, false⟩ := by rfl
  have hread : (ThemeFile.readData "theme.toml" (duskFolder.read? (FilePath.normalized "theme.toml")) :
      Except (Failure Float) (List (String × Value))).isOk = true := by decide +kernel
  have hcompile : isFaulty (ThemeFile.compile duskFolder "theme.toml" : Except (Failure Float) (Theme Float)) = true := by
    decide +kernel
  obtain ⟨data, hdata⟩ := exists_ok_of_isOk hread
  rw [ThemeFile.compile, load_of_readData duskFolder "theme.toml" hdata] at hcompile
  obtain ⟨e, he⟩ := exists_of_isFaulty hcompile
  exact ⟨data, e, ⟨hrequest, hdata⟩, he⟩

theorem integerTooLong_named {k : Nat} (h : 40 * 100 ≤ k) :
    IntegerTooLong (ThemeDocument.named (.int (16 ^ k - 1 : Nat))) :=
  ofData_eq_integerTooLong_iff.mp (bind_of_error (ThemeDocument.ofData_named_pow h) _)

theorem ofData_outcome_dusk :
    (ofData (withHue (10 ^ 400)) : Except (Failure Float) (Theme Float)) = .error (.hueTooLarge "h" (10 ^ 400)) ∧
      (ofData (ThemeDocument.named (.int (16 ^ 4000 - 1 : Nat))) : Except (Failure Float) (Theme Float)) =
        .error .integerTooLong ∧
      (run duskFolder ["theme.toml"]).ending = .exit 1 := by
  refine ⟨?_, ?_, ?_⟩
  · obtain ⟨depths, hdepths⟩ := Raising.exists_not_exceeds (α := Float) (withHue (10 ^ 400))
    exact (((ofData_outcome depths _).1 hdepths).1 "h" _ (hueTooLarge_withHue (beyondDoubles_pow le_rfl))).compilation
  · obtain ⟨depths, hdepths⟩ := Raising.exists_not_exceeds (α := Float) (ThemeDocument.named (.int (16 ^ 4000 - 1 : Nat)))
    exact (((ofData_outcome depths _).1 hdepths).2.1 (integerTooLong_named (k := 4000) (by decide))).compilation
  · obtain ⟨data, e, hasks, hend⟩ := exists_asks_duskFolder
    obtain ⟨depths, hdepths⟩ := Raising.exists_not_exceeds (α := Float) data
    have hlarge : ¬ ∃ name n, HueTooLarge data name n := by
      rintro ⟨name, n, hlarge⟩
      rw [ofData_eq_tooLarge_iff.mpr hlarge] at hend
      cases hend
    have hlong : ¬ IntegerTooLong data := by
      intro hlong
      rw [ofData_eq_integerTooLong_iff.mpr hlong] at hend
      cases hend
    rcases ((ofData_outcome depths data).1 hdepths).2.2 hlarge hlong with ⟨t, ht, -⟩ | ⟨fault, -, -, hreports⟩
    · rw [ht] at hend
      cases hend
    · exact (hreports duskFolder ["theme.toml"] _ hasks).ending

end Command

end EditorTheme.Theme
