import EditorTheme.Proofs.Decimal.Layout
import EditorTheme.Proofs.Json.Text
import EditorTheme.Proofs.Text.Scanning

/-!
Reading JSON text. Blanks may stand around every value and every mark; strings and names are decoded, and a number
is the run of its characters. A value that is written out is read back as what it tells, at any depth of indentation.
-/

set_option autoImplicit false
set_option relaxedAutoImplicit false

namespace EditorTheme.Json

open EditorTheme.Text

/-- What a JSON text tells. A number is given by its characters. -/
inductive Reading where
  | text (s : String)
  | number (digits : List Char)
  | array (items : List Reading)
  | object (entries : List (String × Reading))

mutual

def reading : Json → Reading
  | .text s => .text s
  | .number x => .number (numberLayout.render x).toList
  | .array items => .array (itemReadings items)
  | .object entries => .object (entryReadings entries)

def itemReadings : List Json → List Reading
  | [] => []
  | v :: rest => reading v :: itemReadings rest

def entryReadings : List (String × Json) → List (String × Reading)
  | [] => []
  | (name, v) :: rest => (name, reading v) :: entryReadings rest

end

section Reader

def isSpace (c : Char) : Bool := c == ' ' || c == '\n' || c == '\r' || c == '\t'

/-- The characters of numbers and of the words that stand for numbers. -/
def isBare (c : Char) : Bool := c.isAlphanum || c == '.' || c == '+' || c == '-'

def skip : List Char → List Char := List.dropWhile isSpace

variable {γ : Type}

def readItems? (readItem : List Char → Option (γ × List Char)) (closing : Char) :
    Nat → List Char → Option (List γ × List Char)
  | 0, _ => none
  | fuel + 1, cs => do
    let (item, rest) ← readItem cs
    match skip rest with
    | [] => none
    | c :: rest =>
      if c = closing then some ([item], rest)
      else if c = ',' then do
        let (items, after) ← readItems? readItem closing fuel rest
        return (item :: items, after)
      else none

def readSequence? (readItem : List Char → Option (γ × List Char)) (closing : Char) (cs : List Char) :
    Option (List γ × List Char) :=
  match skip cs with
  | [] => none
  | c :: rest => if c = closing then some ([], rest) else readItems? readItem closing (rest.length + 1) (c :: rest)

def readMember? (readItem : List Char → Option (γ × List Char)) (cs : List Char) :
    Option ((String × γ) × List Char) := do
  let (name, rest) ← readString? (skip cs)
  let (v, after) ← readItem (← after? ":" (skip rest))
  return ((name, v), after)

def readBare? (cs : List Char) : Option (List Char × List Char) :=
  if (cs.takeWhile isBare).isEmpty then none else some (cs.takeWhile isBare, cs.dropWhile isBare)

/-- Reads a value that is nested less deeply than the bound. -/
def readValue? : Nat → List Char → Option (Reading × List Char)
  | 0, _ => none
  | fuel + 1, cs =>
    match skip cs with
    | '"' :: rest => (readString? ('"' :: rest)).map fun r => (.text r.1, r.2)
    | '[' :: rest => (readSequence? (readValue? fuel) ']' rest).map fun r => (.array r.1, r.2)
    | '\x7b' :: rest => (readSequence? (readMember? (readValue? fuel)) '\x7d' rest).map fun r => (.object r.1, r.2)
    | rest => (readBare? rest).map fun r => (.number r.1, r.2)

def read? (s : String) : Option Reading := do
  let (v, rest) ← readValue? s.toList.length s.toList
  if (skip rest).isEmpty then some v else none

end Reader

section Blanks

theorem isSpace_newline (depth : Nat) : ∀ c ∈ (newline depth).toList, isSpace c = true := by
  have hnewline : (newline depth).toList = '\n' :: List.replicate (2 * depth) ' ' := by
    simp [newline]
  rw [hnewline, List.forall_mem_cons]
  refine ⟨by decide, fun c hc => ?_⟩
  rw [List.eq_of_mem_replicate hc]
  decide

theorem skip_cons {c : Char} (hc : isSpace c = false) (rest : List Char) : skip (c :: rest) = c :: rest :=
  List.dropWhile_cons_of_neg (by simp [hc])

theorem skip_append {blanks : List Char} (hblanks : ∀ c ∈ blanks, isSpace c = true) {c : Char}
    (hc : isSpace c = false) (rest : List Char) : skip (blanks ++ c :: rest) = c :: rest := by
  have hhead : ∀ d ∈ (c :: rest).head?, isSpace d = false := by
    rintro d ⟨⟩
    exact hc
  exact dropWhile_run hblanks hhead

theorem isBare_eq_false_of_isSpace {c : Char} (h : isSpace c = true) : isBare c = false := by
  simp only [isSpace, Bool.or_eq_true, beq_iff_eq] at h
  rcases h with ((rfl | rfl) | rfl) | rfl <;> decide

end Blanks

/-- What may stand behind a value: nothing that would lengthen a number. -/
def Stops (rest : List Char) : Prop := ∀ c ∈ rest.head?, isBare c = false

/-- A reader takes a text for a value, whatever blanks stand before it and whatever follows it. -/
def Reads {γ : Type} (readItem : List Char → Option (γ × List Char)) (text : List Char) (value : γ) : Prop :=
  ∀ blanks rest, (∀ c ∈ blanks, isSpace c = true) → Stops rest → readItem (blanks ++ (text ++ rest)) = some (value, rest)

def IsClosing (c : Char) : Prop := c = ']' ∨ c = '\x7d'

instance : DecidablePred IsClosing := fun c => inferInstanceAs (Decidable (c = ']' ∨ c = '\x7d'))

theorem IsClosing.isSpace {c : Char} (h : IsClosing c) : isSpace c = false := by
  rcases h with rfl | rfl <;> decide

theorem IsClosing.isBare {c : Char} (h : IsClosing c) : isBare c = false := by
  rcases h with rfl | rfl <;> decide

/-- A text begins with a character of its own, not with a blank and not with a closing bracket. -/
def Opens (text : List Char) : Prop := ∃ c cs, text = c :: cs ∧ isSpace c = false ∧ ¬ IsClosing c

section Sequences

theorem stops_cons {c : Char} (hc : isBare c = false) (rest : List Char) : Stops (c :: rest) := by
  rintro d ⟨⟩
  exact hc

theorem stops_append_cons {blanks : List Char} (hblanks : ∀ c ∈ blanks, isSpace c = true) {c : Char}
    (hc : isBare c = false) (rest : List Char) : Stops (blanks ++ c :: rest) := by
  cases blanks with
  | nil => exact stops_cons hc rest
  | cons b blanks => exact stops_cons (isBare_eq_false_of_isSpace (hblanks b List.mem_cons_self)) _

variable {β γ : Type} {readItem : List Char → Option (γ × List Char)} {write : β → List Char} {content : β → γ}
  {closing : Char}

def tailChars (gap : List Char) (texts : List (List Char)) : List Char := texts.flatMap fun text => ',' :: (gap ++ text)

theorem tailChars_cons (gap text : List Char) (texts : List (List Char)) :
    tailChars gap (text :: texts) = ',' :: (gap ++ (text ++ tailChars gap texts)) := by
  rw [tailChars, List.flatMap_cons, List.cons_append, List.append_assoc]
  rfl

theorem length_le_length_tailChars (gap : List Char) (texts : List (List Char)) :
    texts.length ≤ (tailChars gap texts).length := by
  induction texts with
  | nil => exact Nat.le_refl 0
  | cons text texts ih =>
    simp only [tailChars_cons, List.length_cons, List.length_append]
    omega

def linesChars (depth : Nat) : List (List Char) → List Char
  | [] => []
  | first :: rest =>
    (newline (depth + 1)).toList ++ (first ++ (tailChars (newline (depth + 1)).toList rest ++ (newline depth).toList))

theorem toList_bracketed (opening closing : String) (depth : Nat) (items : List String) :
    (bracketed opening closing depth items).toList =
      opening.toList ++ (linesChars depth (items.map String.toList) ++ closing.toList) := by
  cases items with
  | nil => simp [bracketed, linesChars]
  | cons first rest =>
    simp [bracketed, linesChars, tailChars, String.toList_intercalate, intercalate_cons, List.flatMap_map]

theorem readItems?_tailChars (hclosing : IsClosing closing) {gap ending : List Char}
    (hgap : ∀ c ∈ gap, isSpace c = true) (hending : ∀ c ∈ ending, isSpace c = true) (after : List Char)
    {first : β} {rest : List β} (hread : ∀ item ∈ first :: rest, Reads readItem (write item) (content item))
    {blanks : List Char} (hblanks : ∀ c ∈ blanks, isSpace c = true) {fuel : Nat} (hfuel : rest.length < fuel) :
    readItems? readItem closing fuel
        (blanks ++ (write first ++ (tailChars gap (rest.map write) ++ (ending ++ closing :: after)))) =
      some ((first :: rest).map content, after) := by
  have hcomma : ',' ≠ closing := by rcases hclosing with rfl | rfl <;> decide
  obtain ⟨fuel, rfl⟩ : ∃ n, fuel = n + 1 := ⟨fuel - 1, by omega⟩
  induction rest generalizing first blanks fuel with
  | nil =>
    have hfirst := hread first List.mem_cons_self blanks (ending ++ closing :: after) hblanks
      (stops_append_cons hending hclosing.isBare after)
    rw [List.map_nil, tailChars, List.flatMap_nil, List.nil_append, readItems?, hfirst]
    simp only [Option.bind_eq_bind, Option.bind_some, skip_append hending hclosing.isSpace, if_true, List.map_cons,
      List.map_nil]
  | cons second rest ih =>
    obtain ⟨hhead, htail⟩ := List.forall_mem_cons.mp hread
    obtain ⟨fuel, rfl⟩ : ∃ n, fuel = n + 1 := ⟨fuel - 1, by rw [List.length_cons] at hfuel; omega⟩
    have hless : rest.length < fuel + 1 := by
      rw [List.length_cons] at hfuel
      omega
    have hfirst := hhead blanks (',' :: (gap ++ (write second ++ (tailChars gap (rest.map write) ++
      (ending ++ closing :: after))))) hblanks (stops_cons (by decide) _)
    have hskip : ∀ cs, skip (',' :: cs) = ',' :: cs := skip_cons (by decide)
    have hrest := ih htail hgap fuel hless
    rw [List.map_cons, tailChars_cons]
    simp only [List.cons_append, List.append_assoc]
    rw [readItems?, hfirst]
    simp only [Option.bind_eq_bind, Option.bind_some, hskip, if_neg hcomma, if_true, hrest]
    rfl

theorem readSequence?_linesChars (hclosing : IsClosing closing) (depth : Nat) (items : List β)
    (hread : ∀ item ∈ items, Reads readItem (write item) (content item)) (hopens : ∀ item ∈ items, Opens (write item))
    (after : List Char) :
    readSequence? readItem closing (linesChars depth (items.map write) ++ closing :: after) =
      some (items.map content, after) := by
  cases items with
  | nil =>
    simp only [List.map_nil, linesChars, List.nil_append, readSequence?, skip_cons hclosing.isSpace, if_true]
  | cons first rest =>
    obtain ⟨c, cs, hfirst, hblank, hother⟩ := hopens first List.mem_cons_self
    have hne : c ≠ closing := by
      rintro rfl
      exact hother hclosing
    have hlines : linesChars depth ((first :: rest).map write) ++ closing :: after =
        (newline (depth + 1)).toList ++ c :: (cs ++ (tailChars (newline (depth + 1)).toList (rest.map write) ++
          ((newline depth).toList ++ closing :: after))) := by
      simp only [List.map_cons, linesChars, hfirst, List.append_assoc, List.cons_append]
    have hfuel : rest.length < (cs ++ (tailChars (newline (depth + 1)).toList (rest.map write) ++
        ((newline depth).toList ++ closing :: after))).length + 1 := by
      have hlength := length_le_length_tailChars (newline (depth + 1)).toList (rest.map write)
      simp only [List.length_map, List.length_append] at hlength ⊢
      omega
    have hitems := readItems?_tailChars hclosing (isSpace_newline (depth + 1)) (isSpace_newline depth) after hread
      (List.forall_mem_nil _) hfuel
    rw [hfirst] at hitems
    rw [hlines, readSequence?, skip_append (isSpace_newline (depth + 1)) hblank]
    simp only [if_neg hne]
    exact hitems

end Sequences

section Values

theorem renderItems_eq_map (depth : Nat) (items : List Json) : renderItems depth items = items.map (renderAt depth) := by
  induction items with
  | nil => rfl
  | cons v rest ih => rw [renderItems, ih, List.map_cons]

def entryText (depth : Nat) (entry : String × Json) : String := quoted entry.1 ++ ": " ++ renderAt depth entry.2

theorem renderEntries_eq_map (depth : Nat) (entries : List (String × Json)) :
    renderEntries depth entries = entries.map (entryText depth) := by
  induction entries with
  | nil => rfl
  | cons entry rest ih =>
    rw [renderEntries, ih, List.map_cons]
    rfl

theorem itemReadings_eq_map (items : List Json) : itemReadings items = items.map reading := by
  induction items with
  | nil => rfl
  | cons v rest ih => rw [itemReadings, ih, List.map_cons]

theorem entryReadings_eq_map (entries : List (String × Json)) :
    entryReadings entries = entries.map fun entry => (entry.1, reading entry.2) := by
  induction entries with
  | nil => rfl
  | cons entry rest ih => rw [entryReadings, ih, List.map_cons]

theorem isBare_of_mem_render {x : Float} : ∀ c ∈ (numberLayout.render x).toList, isBare c = true := by
  intro c hc
  have hwords : (∀ c ∈ "NaN".toList, isBare c = true) ∧ ∀ c ∈ "Infinity".toList, isBare c = true :=
    ⟨List.all_eq_true.mp (by decide), List.all_eq_true.mp (by decide)⟩
  rcases Decimal.mem_render numberLayout hc with hnan | hinfinity | hnumber
  · exact hwords.1 c hnan
  · exact hwords.2 c hinfinity
  · simp only [Decimal.isNumberChar, Bool.or_eq_true, beq_iff_eq] at hnumber
    rcases hnumber with (((hdigit | rfl) | rfl) | rfl) | rfl
    · rw [isBare, Char.isAlphanum, hdigit, Bool.or_true]
      rfl
    all_goals decide

theorem render_ne_nil (x : Float) : (numberLayout.render x).toList ≠ [] :=
  Decimal.render_ne_nil numberLayout (by decide) (by decide) x

theorem opens_of_isBare {text : List Char} (hne : text ≠ []) (hbare : ∀ c ∈ text, isBare c = true) : Opens text := by
  cases text with
  | nil => exact absurd rfl hne
  | cons c cs =>
    have hc := hbare c List.mem_cons_self
    refine ⟨c, cs, rfl, ?_, ?_⟩
    · rw [← Bool.not_eq_true]
      intro hspace
      rw [isBare_eq_false_of_isSpace hspace] at hc
      cases hc
    · rintro (rfl | rfl) <;> exact absurd hc (by decide)

theorem opens_renderAt (depth : Nat) (v : Json) : Opens (renderAt depth v).toList := by
  cases v with
  | text s =>
    rw [renderAt, ← List.append_nil (quoted s).toList, quoted_append]
    exact ⟨'"', _, rfl, by decide, by decide⟩
  | number x =>
    rw [renderAt]
    exact opens_of_isBare (render_ne_nil x) isBare_of_mem_render
  | array items =>
    rw [renderAt, toList_bracketed]
    exact ⟨'[', _, rfl, by decide, by decide⟩
  | object entries =>
    rw [renderAt, toList_bracketed]
    exact ⟨'\x7b', _, rfl, by decide, by decide⟩

theorem opens_entryText (depth : Nat) (entry : String × Json) : Opens (entryText depth entry).toList := by
  rw [entryText, String.toList_append, String.toList_append, List.append_assoc, quoted_append]
  exact ⟨'"', _, rfl, by decide, by decide⟩

theorem length_lt_of_mem {opening closing text : String} {texts : List String} (hopening : 0 < opening.toList.length)
    (h : text ∈ texts) (depth : Nat) : text.toList.length < (bracketed opening closing depth texts).toList.length := by
  rw [toList_bracketed]
  cases texts with
  | nil => cases h
  | cons first rest =>
    rcases List.mem_cons.mp h with rfl | hrest
    · simp only [List.map_cons, linesChars, List.length_append]
      omega
    · obtain ⟨before, after, rfl⟩ := List.append_of_mem hrest
      simp only [List.map_cons, List.map_append, linesChars, tailChars, List.flatMap_append, List.flatMap_cons,
        List.length_append, List.length_cons]
      omega

theorem readBare?_append {word rest : List Char} (hne : word ≠ []) (hword : ∀ c ∈ word, isBare c = true)
    (hrest : Stops rest) : readBare? (word ++ rest) = some (word, rest) := by
  rw [readBare?, takeWhile_run hword hrest, dropWhile_run hword hrest, if_neg (by simpa using hne)]

theorem reads_entry {readItem : List Char → Option (Reading × List Char)} {depth : Nat} {entry : String × Json}
    (h : Reads readItem (renderAt depth entry.2).toList entry.2.reading) :
    Reads (readMember? readItem) (entryText depth entry).toList (entry.1, entry.2.reading) := by
  intro blanks rest hblanks hrest
  have hvalue := h [' '] rest (List.forall_mem_singleton.mpr (by decide)) hrest
  have hname := readString?_quoted entry.1 (':' :: ' ' :: ((renderAt depth entry.2).toList ++ rest))
  have hcolon : after? ":" (':' :: ' ' :: ((renderAt depth entry.2).toList ++ rest)) =
      some (' ' :: ((renderAt depth entry.2).toList ++ rest)) := after?_append ":" _
  have htext : (entryText depth entry).toList ++ rest =
      (quoted entry.1).toList ++ (':' :: ' ' :: ((renderAt depth entry.2).toList ++ rest)) := by
    simp [entryText]
  have hskip : skip (':' :: ' ' :: ((renderAt depth entry.2).toList ++ rest)) =
      ':' :: ' ' :: ((renderAt depth entry.2).toList ++ rest) := skip_cons (by decide) _
  rw [List.singleton_append] at hvalue
  rw [htext, readMember?, quoted_append, skip_append hblanks (by decide), ← quoted_append, hname]
  simp only [Option.bind_eq_bind, Option.bind_some, hskip, hcolon, hvalue, Option.pure_def]

theorem readValue?_of_isBare (fuel : Nat) {cs rest : List Char} {c : Char} (hskip : skip cs = c :: rest)
    (hc : isBare c = true) :
    readValue? (fuel + 1) cs = (readBare? (c :: rest)).map fun r => (.number r.1, r.2) := by
  rw [readValue?, hskip]
  split
  case h_1 h =>
    obtain ⟨rfl, -⟩ := List.cons.inj h
    exact absurd hc (by decide)
  case h_2 h =>
    obtain ⟨rfl, -⟩ := List.cons.inj h
    exact absurd hc (by decide)
  case h_3 h =>
    obtain ⟨rfl, -⟩ := List.cons.inj h
    exact absurd hc (by decide)
  case h_4 => rfl

theorem reads_text (fuel depth : Nat) (s : String) :
    Reads (readValue? (fuel + 1)) (renderAt depth (.text s)).toList (.text s) := by
  intro blanks rest hblanks hrest
  have hread := readString?_quoted s rest
  rw [quoted_append] at hread
  rw [renderAt, quoted_append, readValue?, skip_append hblanks (by decide)]
  simp only [hread, Option.map_some]

theorem reads_number (fuel depth : Nat) (x : Float) :
    Reads (readValue? (fuel + 1)) (renderAt depth (.number x)).toList (.number (numberLayout.render x).toList) := by
  intro blanks rest hblanks hrest
  have hread := readBare?_append (render_ne_nil x) isBare_of_mem_render hrest
  obtain ⟨c, cs, htext, hspace, -⟩ := opens_of_isBare (render_ne_nil x) isBare_of_mem_render
  have hc : isBare c = true := by
    apply isBare_of_mem_render c
    rw [htext]
    exact List.mem_cons_self
  rw [renderAt]
  rw [htext, List.cons_append] at hread ⊢
  rw [readValue?_of_isBare fuel (skip_append hblanks hspace (cs ++ rest)) hc, hread]
  rfl

theorem reads_array {fuel depth : Nat} {items : List Json}
    (h : ∀ item ∈ items, Reads (readValue? fuel) (renderAt (depth + 1) item).toList item.reading) :
    Reads (readValue? (fuel + 1)) (renderAt depth (.array items)).toList (.array (items.map reading)) := by
  intro blanks rest hblanks hrest
  have hitems := readSequence?_linesChars (Or.inl rfl) depth items h (fun item _ => opens_renderAt (depth + 1) item) rest
  have htext : (renderAt depth (.array items)).toList ++ rest =
      '[' :: (linesChars depth (items.map fun item => (renderAt (depth + 1) item).toList) ++ ']' :: rest) := by
    rw [renderAt, toList_bracketed, renderItems_eq_map]
    simp [Function.comp_def]
  rw [htext, readValue?, skip_append hblanks (by decide)]
  simp only [hitems, Option.map_some]

theorem reads_object {fuel depth : Nat} {entries : List (String × Json)}
    (h : ∀ entry ∈ entries, Reads (readValue? fuel) (renderAt (depth + 1) entry.2).toList entry.2.reading) :
    Reads (readValue? (fuel + 1)) (renderAt depth (.object entries)).toList
      (.object (entries.map fun entry => (entry.1, entry.2.reading))) := by
  intro blanks rest hblanks hrest
  have hentries := readSequence?_linesChars (Or.inr rfl) depth entries (fun entry hentry => reads_entry (h entry hentry))
    (fun entry _ => opens_entryText (depth + 1) entry) rest
  have htext : (renderAt depth (.object entries)).toList ++ rest =
      '\x7b' :: (linesChars depth (entries.map fun entry => (entryText (depth + 1) entry).toList) ++ '\x7d' :: rest) := by
    rw [renderAt, toList_bracketed, renderEntries_eq_map]
    simp [Function.comp_def]
  rw [htext, readValue?, skip_append hblanks (by decide)]
  simp only [hentries, Option.map_some]

/-- Every value is read back, at every indentation, given a bound that its text does not exceed. -/
theorem reads_renderAt {fuel depth : Nat} {v : Json} (hfuel : (renderAt depth v).toList.length ≤ fuel) :
    Reads (readValue? fuel) (renderAt depth v).toList v.reading := by
  induction fuel generalizing depth v with
  | zero =>
    obtain ⟨c, cs, htext, -, -⟩ := opens_renderAt depth v
    rw [htext] at hfuel
    cases hfuel
  | succ fuel ih =>
    -- One step of the bound goes to the brackets, and every item is shorter than the brackets around it.
    cases v with
    | text s => exact reads_text fuel depth s
    | number x => exact reads_number fuel depth x
    | array items =>
      rw [reading, itemReadings_eq_map]
      refine reads_array fun item hitem => ih ?_
      rw [renderAt, renderItems_eq_map] at hfuel
      have hless : (renderAt (depth + 1) item).toList.length <
          (bracketed "[" "]" depth (items.map (renderAt (depth + 1)))).toList.length :=
        length_lt_of_mem (by decide) (List.mem_map_of_mem hitem) depth
      omega
    | object entries =>
      rw [reading, entryReadings_eq_map]
      refine reads_object fun entry hentry => ih ?_
      rw [renderAt, renderEntries_eq_map] at hfuel
      have hless : (entryText (depth + 1) entry).toList.length <
          (bracketed "\x7b" "\x7d" depth (entries.map (entryText (depth + 1)))).toList.length :=
        length_lt_of_mem (by decide) (List.mem_map_of_mem hentry) depth
      have hvalue : (renderAt (depth + 1) entry.2).toList.length ≤ (entryText (depth + 1) entry).toList.length := by
        simp only [entryText, String.toList_append, List.length_append]
        omega
      omega

theorem read?_render (v : Json) : read? v.render = some v.reading := by
  have hread := reads_renderAt (Nat.le_refl (renderAt 0 v).toList.length) [] [] (List.forall_mem_nil _) (by simp [Stops])
  rw [List.nil_append, List.append_nil] at hread
  rw [read?, render, hread]
  rfl

end Values

end EditorTheme.Json
