import EditorTheme.Proofs.Raising.Resolution
import EditorTheme.Proofs.Style

/-!
Reading highlight values and globals with operations that can raise. A color that is not there is noticed by a look-up
that raises; letters are checked before they are looked up, and missing fields are filled in before four are unpacked.
-/

set_option autoImplicit false
set_option relaxedAutoImplicit false

namespace EditorTheme.Raising

open EditorTheme.Text

variable {α : Type}

section Fields

def readColor (colors : Table (Color α)) (group name : String) : Except (Exception α) (Option (Color α)) :=
  if name = "-" then .ok none else do return some (← lookUp colors.entries name (.unknownColor name group))

def flagOf (letter : Char) : Except (Exception α) StyleFlag :=
  match StyleFlag.ofLetter? letter with
  | some flag => .ok flag
  | none => .error (.noEntry (String.ofList [letter]))

def addFlag (group : String) (styles : StyleSet) (letter : Char) : Except (Exception α) StyleSet :=
  if (StyleFlag.ofLetter? letter).isNone then .error (.theme (.unknownStyle letter group))
  else do return styles.union (.ofList [← flagOf letter])

def readStyles (field group : String) : Except (Exception α) StyleSet :=
  if field = "-" then .ok .empty else field.toList.foldlM (addFlag group) .empty

def unpackFour : List String → Except (Exception α) (String × String × String × String)
  | [first, second, third, fourth] => .ok (first, second, third, fourth)
  | items => .error (.notFour items.length)

/-- The four fields of a line that has no more; those left out at the end are filled in. -/
def readFields (line : List Char) : Except (Exception α) (Option (String × String × String × String)) :=
  let fields := (words line).map String.ofList
  if fields.isEmpty || 4 < fields.length then .ok none
  else do return some (← unpackFour (fields ++ List.replicate (4 - fields.length) "-"))

theorem readColor_eq (colors : Table (Color α)) (group name : String) :
    readColor colors group name = raise (namedColor colors group name) := by
  unfold readColor namedColor
  split
  · rfl
  · cases hfound : colors.find? name with
    | some c =>
      rw [lookUp_of_some hfound]
      rfl
    | none =>
      rw [lookUp_of_none hfound]
      rfl

theorem union_ofLetters_cons (styles : StyleSet) (flag : StyleFlag) (letters : List Char) :
    (styles.union (.ofList [flag])).union (.ofLetters letters) = styles.union (.ofLetters (flag.letter :: letters)) := by
  refine congrArg StyleSet.mk (funext fun other => ?_)
  have hsame : [flag].contains other = (other.letter == flag.letter) := by
    rw [Bool.eq_iff_iff, List.contains_iff_mem, List.mem_singleton, beq_iff_eq]
    exact ⟨congrArg StyleFlag.letter, StyleFlag.letter_injective⟩
  show (styles.contains other || [flag].contains other || letters.contains other.letter) =
    (styles.contains other || (flag.letter :: letters).contains other.letter)
  rw [hsame, Bool.or_assoc, List.contains_cons]

theorem foldlM_addFlag (group : String) (letters : List Char) (styles : StyleSet) :
    (letters.foldlM (addFlag group) styles : Except (Exception α) StyleSet) =
      match letters.find? fun letter => (StyleFlag.ofLetter? letter).isNone with
      | some letter => .error (.theme (.unknownStyle letter group))
      | none => .ok (styles.union (.ofLetters letters)) := by
  induction letters generalizing styles with
  | nil =>
    have hunion : styles.union (.ofLetters []) = styles := congrArg StyleSet.mk (funext fun _ => Bool.or_false _)
    rw [List.foldlM_nil, List.find?_nil, hunion]
    rfl
  | cons letter rest ih =>
    rw [List.foldlM_cons]
    cases hflag : StyleFlag.ofLetter? letter with
    | none =>
      have hunknown : (StyleFlag.ofLetter? letter).isNone = true := Option.isNone_iff_eq_none.mpr hflag
      have hfirst : ((letter :: rest).find? fun letter => (StyleFlag.ofLetter? letter).isNone) = some letter :=
        List.find?_cons_of_pos hunknown
      rw [addFlag, if_pos hunknown, hfirst]
      rfl
    | some flag =>
      have hletter : flag.letter = letter := by simpa using List.find?_some hflag
      have hknown : ¬ (StyleFlag.ofLetter? letter).isNone = true := by simp [hflag]
      have hadded : (addFlag group styles letter : Except (Exception α) StyleSet) =
          .ok (styles.union (.ofList [flag])) := by
        rw [addFlag, if_neg hknown, flagOf, hflag]
        rfl
      have hlater : ((letter :: rest).find? fun letter => (StyleFlag.ofLetter? letter).isNone) =
          rest.find? fun letter => (StyleFlag.ofLetter? letter).isNone := List.find?_cons_of_neg hknown
      rw [bind_of_ok hadded, ih, hlater, union_ofLetters_cons, hletter]

theorem readStyles_eq (field group : String) :
    (readStyles field group : Except (Exception α) StyleSet) = raise (StyleSet.read field group) := by
  unfold readStyles StyleSet.read
  split
  · rfl
  · rw [foldlM_addFlag]
    cases field.toList.find? fun letter => (StyleFlag.ofLetter? letter).isNone with
    | some letter => rfl
    | none =>
      have hunion : StyleSet.empty.union (.ofLetters field.toList) = .ofLetters field.toList :=
        congrArg StyleSet.mk (funext fun _ => Bool.false_or _)
      simp only [hunion, raise_ok]

theorem readFields_eq (line : List Char) :
    (readFields line : Except (Exception α) (Option (String × String × String × String))) =
      .ok (Highlight.fields? line) := by
  unfold readFields Highlight.fields?
  rcases (words line).map String.ofList with _ | ⟨a, _ | ⟨b, _ | ⟨c, _ | ⟨d, _ | ⟨e, rest⟩⟩⟩⟩⟩
  case cons.cons.cons.cons.cons => simp
  all_goals rfl

end Fields

def readHighlight (colors : Table (Color α)) (group : String) (value : Value) : Except (Exception α) (Highlight α) := do
  let text ← textOf value
  let line := trim text.toList
  match Highlight.afterLinkMark? line with
  | some rest =>
    match words rest with
    | [target] => return .link (String.ofList target)
    | _ => .error (.theme (.invalidHighlight group text))
  | none =>
    match ← readFields line with
    | none => .error (.theme (.invalidHighlight group text))
    | some (foreground, background, styles, special) => do
      let foreground ← readColor colors group foreground
      let background ← readColor colors group background
      let styles ← readStyles styles group
      let special ← readColor colors group special
      return .styled ⟨foreground, background, styles, special⟩

def readGlobal [Scalar α] (depth : Nat) (colors : Table (Color α)) (hues : HueTable α) (name : String)
    (value : Value) : Except (Exception α) (Option (Color α)) := do
  let text := trimmed (← textOf value)
  if text ≠ "-" ∧ !colors.contains text ∧ Expression.isExpression text then do
    let e ← readExpression depth (.text text)
    return some (← evalGlobal colors hues name e)
  else readColor colors name text

theorem readHighlight_eq (colors : Table (Color α)) (group text : String) :
    readHighlight colors group (.text text) = raise (Highlight.read colors group text) := by
  unfold readHighlight Highlight.read
  rw [bind_of_ok (show textOf (.text text) = .ok text from rfl)]
  simp only
  cases Highlight.afterLinkMark? (trim text.toList) with
  | some rest =>
    simp only
    rcases words rest with _ | ⟨target, _ | ⟨next, more⟩⟩ <;> rfl
  | none =>
    simp only
    rw [bind_of_ok (readFields_eq _)]
    cases Highlight.fields? (trim text.toList) with
    | none => rfl
    | some fields =>
      simp only [readColor_eq, readStyles_eq, raise_bind]
      rfl

theorem readGlobal_eq [Scalar α] [DividesChannels α] (depth : Nat) (colors : Table (Color α)) (hues : HueTable α)
    (name text : String) :
    readGlobal depth colors hues name (.text text) = raise (GlobalColor.read colors hues name text) := by
  unfold readGlobal GlobalColor.read
  rw [bind_of_ok (show textOf (.text text) = .ok text from rfl)]
  simp only
  split
  · rw [readExpression_text]
    cases hexpression : Expression.read (α := α) (trimmed text) with
    | error fault => rfl
    | ok e =>
      rw [raise_ok, bind_of_ok rfl, evalGlobal_eq colors hues name (hasBytes_of_read hexpression), bind_of_ok rfl,
        raise_bind]
      rfl
  · exact readColor_eq colors name (trimmed text)

end EditorTheme.Raising
