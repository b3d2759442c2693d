import EditorTheme.Proofs.Raising.Highlight
import EditorTheme.Proofs.Theme.Document
import EditorTheme.Theme.Compilation

/-!
A compilation written with operations that can raise, from a table of values to a theme. The values of the sections are
checked and stay values, and every use takes the text or the number out of its value again. It ends as the library's
compilation does, unless it goes deeper than is permitted, into the values that it writes or along the references that
it follows.
-/

set_option autoImplicit false
set_option relaxedAutoImplicit false

namespace EditorTheme

namespace Raising

variable {α : Type}

structure Document where
  name : String
  background : String
  colors : List (String × Value)
  hues : List (String × Value)
  highlights : List (String × Value)
  globals : List (String × Value)

section Document

def isText : Value → Bool
  | .text _ => true
  | _ => false

def isTable : Value → Bool
  | .table _ => true
  | _ => false

def checkText (depth : Nat) (sectionName : String) (e : String × Value) : Except (Exception α) Unit :=
  if isText e.2 then .ok () else fail depth e.2 (.invalidEntry sectionName (some e.1))

def readTextSection (depth : Nat) (data : List (String × Value)) (sectionName : String) (isRequired : Bool) :
    Except (Exception α) (List (String × Value)) :=
  if (data.lookup sectionName).isSome then do
    let value ← entry data sectionName
    if isTable value then do
      let entries ← entriesOf value
      entries.forM (checkText depth sectionName)
      return entries
    else fail depth value (.invalidEntry sectionName none)
  else if isRequired then fail depth .absent (.invalidEntry sectionName none)
  else .ok []

def readHueSection (depth : Nat) (data : List (String × Value)) : Except (Exception α) (List (String × Value)) :=
  let value := (data.lookup "hues").getD (.table [])
  if isTable value then entriesOf value else fail depth value (.invalidEntry "hues" none)

def readScalar (depth : Nat) (data : List (String × Value)) (key : String) : Except (Exception α) String :=
  let value := (data.lookup key).getD .absent
  if isText value then do
    let text ← textOf value
    if (Text.trim text.toList).isEmpty then fail depth value (.invalidEntry key none) else return text
  else fail depth value (.invalidEntry key none)

def readThemeName (depth : Nat) (data : List (String × Value)) : Except (Exception α) String := do
  let name ← readScalar depth data "name"
  if Expression.isName name.toList then return name
  else fail depth (.text name) (.invalidEntry "name" none)

def readDocument (depth : Nat) (data : List (String × Value)) : Except (Exception α) Document := do
  let hues ← readHueSection depth data
  let name ← readThemeName depth data
  let background ← readScalar depth data "background"
  let colors ← readTextSection depth data "colors" true
  let highlights ← readTextSection depth data "highlights" false
  let globals ← readTextSection depth data "globals" false
  return { name, background, colors, hues, highlights, globals }

def ofTexts (entries : List (String × String)) : List (String × Value) := entries.map fun e => (e.1, .text e.2)

def Document.ofDocument (d : ThemeDocument) : Document :=
  { name := d.name, background := d.background, colors := ofTexts d.colors, hues := d.hues,
    highlights := ofTexts d.highlights, globals := ofTexts d.globals }

variable {depth : Nat} {data : List (String × Value)}

theorem fail_text (depth : Nat) (s : String) (fault : Described → ThemeError α) {β : Type} :
    (fail depth (.text s) fault : Except (Exception α) β) = .error (.theme (fault (.text s))) := by
  have hshowing : Failure.showing (.text s) fault = .theme (fault (.text s)) :=
    Failure.showing_value fault (Described.text s)
  rw [fail, hshowing]
  rfl

theorem checkText_agrees (depth : Nat) (sectionName : String) (e : String × Value) :
    AgreesUnless (depth < e.2.depth) (checkText depth sectionName e : Except (Exception α) Unit)
      ((ThemeDocument.textEntry sectionName e >>= fun _ => .ok ()).mapError exceptionOf) := by
  obtain ⟨name, value⟩ := e
  cases value with
  | text s => exact .of_eq rfl
  | _ => exact fail_agrees depth _ _

theorem forM_checkText_agrees (depth : Nat) (sectionName : String) (entries : List (String × Value)) :
    AgreesUnless (depth < Value.depthOfEntries entries)
      (entries.forM (checkText depth sectionName) : Except (Exception α) Unit)
      ((entries.mapM (ThemeDocument.textEntry sectionName) >>= fun _ => .ok ()).mapError exceptionOf) := by
  induction entries with
  | nil => exact .of_eq rfl
  | cons e rest ih =>
    have hsplit : ((e :: rest).mapM (ThemeDocument.textEntry sectionName) >>= fun _ => .ok () :
        Except (Failure α) Unit) =
        ((ThemeDocument.textEntry sectionName e >>= fun _ => .ok ()) >>= fun _ =>
          rest.mapM (ThemeDocument.textEntry sectionName) >>= fun _ => .ok ()) := by
      rw [List.mapM_cons]
      simp only [bind_assoc, pure_bind]
      rfl
    rw [hsplit, mapError_bind]
    have hfirst := checkText_agrees (α := α) depth sectionName e
    refine (hfirst.of_le (Nat.le_max_left _ _)).bind fun _ _ => ?_
    exact ih.of_le (Nat.le_max_right _ _)

theorem checkTexts_agrees (depth : Nat) (sectionName : String) (entries : List (String × Value)) :
    AgreesUnless (depth < Value.depthOfEntries entries)
      (do entries.forM (checkText depth sectionName); return entries : Except (Exception α) (List (String × Value)))
      ((entries.mapM (ThemeDocument.textEntry sectionName)).mapError exceptionOf >>= fun texts => .ok (ofTexts texts)) := by
  have hsame : ((entries.mapM (ThemeDocument.textEntry (α := α) sectionName)).mapError exceptionOf >>= fun texts =>
      .ok (ofTexts texts)) =
      ((entries.mapM (ThemeDocument.textEntry sectionName) >>= fun _ => .ok ()).mapError exceptionOf >>= fun _ =>
        .ok entries) := by
    cases hread : entries.mapM (ThemeDocument.textEntry (α := α) sectionName) with
    | error fault => rfl
    | ok texts =>
      have htexts : ofTexts texts = entries := (ThemeDocument.mapM_textEntry_eq_ok_iff.mp hread).symm
      exact congrArg Except.ok htexts
  rw [hsame]
  exact (forM_checkText_agrees depth sectionName entries).bind fun _ _ => .of_eq rfl

theorem readTextSection_agrees (depth : Nat) (data : List (String × Value)) (sectionName : String)
    (isRequired : Bool) :
    AgreesUnless (depth < Value.depthOfEntries data)
      (readTextSection depth data sectionName isRequired : Except (Exception α) (List (String × Value)))
      ((if isRequired then ThemeDocument.requiredSection data sectionName
        else ThemeDocument.optionalSection data sectionName).mapError exceptionOf >>= fun texts => .ok (ofTexts texts)) := by
  unfold readTextSection ThemeDocument.requiredSection ThemeDocument.optionalSection
  cases hfound : data.lookup sectionName with
  | none =>
    cases isRequired with
    | false => exact .of_eq rfl
    | true => exact (fail_agrees depth .absent _).of_le (Nat.zero_le _)
  | some value =>
    have hentry : (entry data sectionName : Except (Exception α) Value) = .ok value := by
      rw [entry, hfound]
    have hsection : (if isRequired then ThemeDocument.textSection (α := α) sectionName ((some value).getD .absent)
        else ThemeDocument.textSection sectionName value) = ThemeDocument.textSection sectionName value := by
      cases isRequired <;> rfl
    simp only [Option.isSome_some, if_true, hsection]
    rw [bind_of_ok hentry]
    cases value with
    | table entries =>
      have hdepth := Value.depthOfEntries_lt_of_lookup hfound
      exact (checkTexts_agrees depth sectionName entries).of_le (Nat.le_of_lt hdepth)
    | _ => exact (fail_agrees depth _ _).of_le (Value.depth_le_of_lookup hfound)

theorem readHueSection_agrees (depth : Nat) (data : List (String × Value)) :
    AgreesUnless (depth < Value.depthOfEntries data)
      (readHueSection depth data : Except (Exception α) (List (String × Value)))
      ((ThemeDocument.hueSection data).mapError exceptionOf) := by
  unfold readHueSection ThemeDocument.hueSection
  cases hfound : data.lookup "hues" with
  | none => exact .of_eq rfl
  | some value =>
    cases value with
    | table entries => exact .of_eq rfl
    | _ => exact (fail_agrees depth _ _).of_le (Value.depth_le_of_lookup hfound)

theorem readScalar_agrees (depth : Nat) (data : List (String × Value)) (key : String) :
    AgreesUnless (depth < Value.depthOfEntries data) (readScalar depth data key : Except (Exception α) String)
      ((ThemeDocument.scalar data key).mapError exceptionOf) := by
  have hdepth : ((data.lookup key).getD .absent).depth ≤ Value.depthOfEntries data := by
    cases hfound : data.lookup key with
    | none => exact Nat.zero_le _
    | some value => exact Value.depth_le_of_lookup hfound
  unfold readScalar ThemeDocument.scalar
  generalize (data.lookup key).getD .absent = value at hdepth
  cases value with
  | text s =>
    left
    show (if (Text.trim s.toList).isEmpty then _ else _) =
      (if (Text.trim s.toList).isEmpty then _ else _ : Except (Failure α) String).mapError exceptionOf
    split_ifs
    · exact fail_text depth s _
    · rfl
  | _ => exact (fail_agrees depth _ _).of_le hdepth

theorem readThemeName_agrees (depth : Nat) (data : List (String × Value)) :
    AgreesUnless (depth < Value.depthOfEntries data) (readThemeName depth data : Except (Exception α) String)
      ((ThemeDocument.themeName data).mapError exceptionOf) := by
  unfold readThemeName ThemeDocument.themeName
  rw [mapError_bind]
  refine (readScalar_agrees depth data "name").bind fun name _ => .of_eq ?_
  split_ifs
  · rfl
  · exact fail_text depth name _

theorem readDocument_agrees (depth : Nat) (data : List (String × Value)) :
    AgreesUnless (depth < Value.depthOfEntries data) (readDocument depth data : Except (Exception α) Document)
      ((ThemeDocument.ofData data).mapError exceptionOf >>= fun d => .ok (.ofDocument d)) := by
  have hsections : ((ThemeDocument.ofData data).mapError exceptionOf >>= fun d => .ok (.ofDocument d) :
      Except (Exception α) Document) = (do
        let hues ← (ThemeDocument.hueSection data).mapError exceptionOf
        let name ← (ThemeDocument.themeName data).mapError exceptionOf
        let background ← (ThemeDocument.scalar data "background").mapError exceptionOf
        let colors ← (ThemeDocument.requiredSection data "colors").mapError exceptionOf >>= fun t => .ok (ofTexts t)
        let highlights ← (ThemeDocument.optionalSection data "highlights").mapError exceptionOf >>= fun t =>
          .ok (ofTexts t)
        let globals ← (ThemeDocument.optionalSection data "globals").mapError exceptionOf >>= fun t => .ok (ofTexts t)
        return { name, background, colors, hues, highlights, globals }) := by
    simp only [ThemeDocument.ofData, mapError_bind, bind_assoc]
    rfl
  rw [hsections]
  refine (readHueSection_agrees depth data).bind fun hues _ => ?_
  refine (readThemeName_agrees depth data).bind fun name _ => ?_
  refine (readScalar_agrees depth data "background").bind fun background _ => ?_
  refine (readTextSection_agrees depth data "colors" true).bind fun colors _ => ?_
  refine (readTextSection_agrees depth data "highlights" false).bind fun highlights _ => ?_
  exact (readTextSection_agrees depth data "globals" false).bind fun globals _ => .of_eq rfl

end Document

variable [Scalar α]

section Hues

/-- The number of a value; an integer is brought to the nearest number. -/
def toNumber : Value → Except (Exception α) α
  | .int n =>
    match Scalar.ofInt? n with
    | some x => .ok x
    | none => .error (.tooLarge n)
  | .number x => .ok (Scalar.ofDouble x)
  | v => .error (.notNumber v)

/-- Whether a value is a finite number. An integer is one if it can be brought to a number. -/
def isFiniteNumber : Value → Except (Exception α) Bool
  | .int n => do
    let _ ← (toNumber (.int n) : Except (Exception α) α)
    return true
  | .number x => .ok x.isFinite
  | _ => .ok false

def addHue (depth : Nat) (t : HueTable α) (e : String × Value) : Except (Exception α) (HueTable α) :=
  if t.contains e.1 then .error (.theme (.duplicateHue e.1))
  else do
    if ← isFiniteNumber e.2 then return t.insert e.1 (wrapHue (← toNumber e.2))
    else fail depth e.2 (.invalidEntry "hues" (some e.1))

def readHues (depth : Nat) (entries : List (String × Value)) : Except (Exception α) (HueTable α) :=
  entries.foldlM (addHue depth) Table.empty

theorem addHue_agrees (depth : Nat) (t : HueTable α) (e : String × Value) :
    AgreesUnless (depth < e.2.depth) (addHue depth t e) ((HueTable.add t e.1 e.2).mapError exceptionOf) := by
  obtain ⟨name, value⟩ := e
  unfold addHue HueTable.add
  split_ifs
  · exact .of_eq rfl
  · cases value with
    | int n =>
      left
      unfold HueTable.readHue isFiniteNumber toNumber
      simp only
      cases Scalar.ofInt? (α := α) n <;> rfl
    | number x =>
      unfold HueTable.readHue isFiniteNumber toNumber
      simp only
      cases x.isFinite with
      | true => exact .of_eq rfl
      | false => exact fail_agrees depth _ _
    | _ => exact fail_agrees depth _ _

theorem readHues_agrees (depth : Nat) (entries : List (String × Value)) :
    AgreesUnless (depth < Value.depthOfEntries entries) (readHues depth entries)
      ((HueTable.ofPairs entries : Except (Failure α) (HueTable α)).mapError exceptionOf) := by
  unfold readHues HueTable.ofPairs
  rw [mapError_foldlM]
  refine AgreesUnless.foldlM (fun e he t => ?_) _
  exact (addHue_agrees depth t e).of_le (Value.depth_le_depthOfEntries he)

end Hues

def readHighlights (colors : Table (Color α)) (entries : List (String × Value)) :
    Except (Exception α) (List (String × Highlight α)) :=
  entries.mapM fun e => do return (e.1, ← readHighlight colors e.1 e.2)

def readGlobals (depth : Nat) (colors : Table (Color α)) (hues : HueTable α) (entries : List (String × Value)) :
    Except (Exception α) (List (String × Option (Color α))) :=
  entries.mapM fun e => do return (e.1, ← readGlobal depth colors hues e.1 e.2)

def compile (depths : Depths) (d : Document) : Except (Exception α) (Theme α) := do
  let background ← raise (Background.read d.background)
  let hues ← readHues depths.nesting d.hues
  let colors ← resolve depths d.colors hues
  let highlights ← readHighlights colors d.highlights
  let globals ← readGlobals depths.nesting colors hues d.globals
  return { name := d.name, background, colors, highlights, globals }

def ofData (depths : Depths) (data : List (String × Value)) : Except (Exception α) (Theme α) := do
  compile depths (← readDocument depths.nesting data)

/-- A table of values in which something is deeper than is permitted: values inside each other, or references of the
colors, one after the other. -/
inductive Exceeds (α : Type) [Scalar α] (depths : Depths) (data : List (String × Value)) : Prop
  | nesting (h : depths.nesting < Value.depthOfEntries data) : Exceeds α depths data
  | search {texts : List (String × String)} {p : Palette α}
      (hcolors : data.lookup "colors" = some (ThemeDocument.textTable texts)) (hread : Palette.parse texts = .ok p)
      (h : p.Descends depths.search) : Exceeds α depths data

theorem exists_not_exceeds (data : List (String × Value)) : ∃ depths, ¬ Exceeds α depths data := by
  by_cases h : ∃ texts, ∃ p : Palette α,
      data.lookup "colors" = some (ThemeDocument.textTable texts) ∧ Palette.parse texts = .ok p
  · obtain ⟨texts, p, hcolors, hread⟩ := h
    refine ⟨⟨p.names.length + 1, Value.depthOfEntries data⟩, ?_⟩
    rintro (hnesting | ⟨hcolors', hread', hdescends⟩)
    · exact Nat.lt_irrefl _ hnesting
    · obtain rfl := ThemeDocument.textTable_injective (Option.some.inj (hcolors.symm.trans hcolors'))
      obtain rfl := Except.ok.inj (hread.symm.trans hread')
      exact Palette.not_descends (Nat.lt_succ_self _) hdescends
  · refine ⟨⟨0, Value.depthOfEntries data⟩, ?_⟩
    rintro (hnesting | ⟨hcolors, hread, -⟩)
    · exact Nat.lt_irrefl _ hnesting
    · exact h ⟨_, _, hcolors, hread⟩

section Compilation

omit [Scalar α] in
theorem mapM_ofTexts {β : Type} {readValue : String → Value → Except (Exception α) β}
    {read : String → String → Except (ThemeError α) β} (h : ∀ name s, readValue name (.text s) = raise (read name s))
    (entries : List (String × String)) :
    ((ofTexts entries).mapM fun e => do return (e.1, ← readValue e.1 e.2)) =
      raise (entries.mapM fun e => do return (e.1, ← read e.1 e.2)) := by
  unfold ofTexts
  rw [raise, mapError_mapM, List.mapM_map]
  refine congrArg (fun step => entries.mapM step) (funext fun e => ?_)
  show (do return (e.1, ← readValue e.1 (.text e.2))) = _
  rw [h, mapError_bind]
  rfl

omit [Scalar α] in
theorem readHighlights_eq (colors : Table (Color α)) (entries : List (String × String)) :
    readHighlights colors (ofTexts entries) = raise (Highlight.readAll colors entries) :=
  mapM_ofTexts (readHighlight_eq colors) entries

theorem readGlobals_eq [DividesChannels α] (depth : Nat) (colors : Table (Color α)) (hues : HueTable α)
    (entries : List (String × String)) :
    readGlobals depth colors hues (ofTexts entries) = raise (GlobalColor.readAll colors hues entries) :=
  mapM_ofTexts (readGlobal_eq depth colors hues) entries

theorem depthOfEntries_ofTexts (entries : List (String × String)) : Value.depthOfEntries (ofTexts entries) = 0 := by
  induction entries with
  | nil => rfl
  | cons e rest ih => exact (Nat.zero_max _).trans ih

theorem ofValues_ofTexts (entries : List (String × String)) :
    Palette.ofValues (ofTexts entries) = Theme.fault (Palette.parse entries : Except (ThemeError α) (Palette α)) := by
  unfold Palette.ofValues Palette.parse Palette.ofEntries ofTexts Theme.fault
  rw [mapError_foldlM, List.foldlM_map]
  refine congrArg (fun step => entries.foldlM step Table.empty) (funext fun t => funext fun e => ?_)
  rw [mapError_bind]
  rfl

theorem readEntries_ofTexts (depth : Nat) (entries : List (String × String)) :
    (readEntries depth (ofTexts entries) : Except (Exception α) (Palette α)) = raise (Palette.parse entries) := by
  have hagrees := readEntries_agrees (α := α) depth (ofTexts entries)
  rw [ofValues_ofTexts, mapError_fault, depthOfEntries_ofTexts] at hagrees
  exact hagrees.eq (Nat.not_lt_zero depth)

theorem resolve_ofTexts_agrees [DividesChannels α] (depths : Depths) (entries : List (String × String))
    (hues : HueTable α) :
    AgreesUnless (∃ p : Palette α, Palette.parse entries = .ok p ∧ p.Descends depths.search)
      (resolve depths (ofTexts entries) hues) (raise (Palette.resolve entries hues)) := by
  have hresolve : raise (Palette.resolve entries hues) =
      (Palette.ofValues (ofTexts entries) >>= fun p => Theme.fault (p.evaluate hues)).mapError exceptionOf := by
    rw [ofValues_ofTexts, ← mapError_fault, Palette.resolve, Theme.fault, mapError_bind]
    rfl
  rw [hresolve]
  refine (resolve_agrees depths (ofTexts entries) hues).mono ?_
  rintro (hnesting | ⟨p, hp, hdescends⟩)
  · rw [depthOfEntries_ofTexts] at hnesting
    exact absurd hnesting (Nat.not_lt_zero _)
  · rw [ofValues_ofTexts, Theme.fault_eq_ok_iff] at hp
    exact ⟨p, hp, hdescends⟩

theorem compile_agrees [DividesChannels α] (depths : Depths) (d : ThemeDocument) :
    AgreesUnless
      (depths.nesting < Value.depthOfEntries d.hues ∨ ∃ p : Palette α, Palette.parse d.colors = .ok p ∧
        p.Descends depths.search)
      (compile depths (.ofDocument d)) ((Theme.compile d : Except (Failure α) (Theme α)).mapError exceptionOf) := by
  unfold compile Theme.compile
  simp only [mapError_bind, mapError_fault, Document.ofDocument, readHighlights_eq, readGlobals_eq]
  refine AgreesUnless.bind (.of_eq rfl) fun background _ => ?_
  refine ((readHues_agrees depths.nesting d.hues).mono Or.inl).bind fun hues _ => ?_
  exact ((resolve_ofTexts_agrees depths d.colors hues).mono Or.inr).bind fun colors _ => .of_eq rfl

omit [Scalar α] in
theorem depthOfEntries_hues_le {data : List (String × Value)} {d : ThemeDocument} (h : ThemeDocument.Holds data d) :
    Value.depthOfEntries d.hues ≤ Value.depthOfEntries data := by
  have hhues := h.hues
  cases hfound : data.lookup "hues" with
  | none =>
    rw [hfound] at hhues
    rw [← Value.table.inj hhues]
    exact Nat.zero_le _
  | some value =>
    rw [hfound] at hhues
    obtain rfl : value = .table d.hues := hhues
    exact Nat.le_of_lt (Value.depthOfEntries_lt_of_lookup hfound)

/-- A compilation raises what the library's compilation reports, unless something is deeper than is permitted. -/
theorem ofData_agrees [DividesChannels α] (depths : Depths) (data : List (String × Value)) :
    AgreesUnless (Exceeds α depths data) (ofData depths data)
      ((Theme.ofData data : Except (Failure α) (Theme α)).mapError exceptionOf) := by
  unfold ofData Theme.ofData
  rw [mapError_bind]
  have hread : AgreesUnless (Exceeds α depths data) (readDocument depths.nesting data : Except (Exception α) Document)
      ((ThemeDocument.ofData data).mapError exceptionOf >>= fun d => .ok (.ofDocument d)) :=
    (readDocument_agrees depths.nesting data).mono fun h => .nesting h
  refine (hread.bind fun d _ => .of_eq rfl).trans ?_
  rw [bind_assoc]
  refine AgreesUnless.bind (.of_eq rfl) fun d hd => ?_
  have hholds : ThemeDocument.Holds data d := ThemeDocument.ofData_eq_ok_iff.mp ((mapError_eq_ok_iff _).mp hd)
  refine (compile_agrees depths d).mono ?_
  rintro (hnesting | ⟨p, hp, hdescends⟩)
  · exact .nesting (Nat.lt_of_lt_of_le hnesting (depthOfEntries_hues_le hholds))
  · exact .search hholds.colors hp hdescends

end Compilation

end Raising

end EditorTheme
