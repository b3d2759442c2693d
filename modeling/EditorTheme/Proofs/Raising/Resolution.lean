import EditorTheme.Proofs.Palette.Solution
import EditorTheme.Proofs.Raising.Evaluation

/-!
Resolving a palette with operations that can raise. The search marks the names that it has entered and left and keeps the
way to the current one on a stack; entries, marks and colors are looked up by their names. Where everything referred to
is declared, each look-up finds what it asks for, and the search is the one of the library, unless it is cut off because
visits go deeper inside each other than is permitted.
-/

set_option autoImplicit false
set_option relaxedAutoImplicit false

namespace EditorTheme

/-- References lead through as many different names as the depth says, and on to a declared name. -/
def Palette.Descends {α : Type} (p : Palette α) (depth : Nat) : Prop :=
  ∃ path name, path.length = depth ∧ name ∈ p.names ∧ p.Way path name

theorem Palette.not_descends {α : Type} {p : Palette α} {depth : Nat} (h : p.names.length < depth) :
    ¬ p.Descends depth := by
  rintro ⟨path, name, rfl, -, hway⟩
  exact Nat.not_le.mpr h hway.length_le

namespace Raising

variable {α β : Type}

/-- A name that the search has entered, or has left. -/
inductive Mark where
  | entered
  | left
  deriving DecidableEq

/-- What a search changes: the marks, the way to the current name, and the names in the order in which they were left. -/
structure Search where
  marks : Table Mark
  path : List String
  order : List String

namespace Search

def enter (s : Search) (name : String) : Search :=
  { s with marks := s.marks.insert name .entered, path := s.path ++ [name] }

def leave (s : Search) (name : String) : Except (Exception α) Search := do
  let path ← popped s.path
  return { marks := s.marks.insert name .left, path, order := s.order ++ [name] }

end Search

/-- Visits a name, no deeper than is allowed. -/
def visit (p : Palette α) : Nat → Search → String → Except (Exception α) Search
  | 0, _, _ => .error .tooDeep
  | depth + 1, s, name =>
    match s.marks.find? name with
    | some .left => .ok s
    | some .entered => do
      let start ← placeOf s.path name
      .error (.theme (.cycle (s.path.drop start ++ [name])))
    | none => do
      let e ← entry p.entries name
      let s ← e.references.foldlM (fun s reference => visit p depth s reference) (s.enter name)
      s.leave name

/-- The order of the names of a palette. Each search begins with an empty path. -/
def order (depth : Nat) (p : Palette α) : Except (Exception α) (List String) := do
  let s ← p.names.foldlM (fun s name => visit p depth { s with path := [] } name) ⟨Table.empty, [], []⟩
  return s.order

/-- A search stands where the library's search stands: with the same path and the same names done, all of them marked. -/
structure Follows (s : Search) (path done : List String) : Prop where
  path_eq : s.path = path
  order_eq : s.order = done
  left_iff : ∀ name, s.marks.find? name = some .left ↔ name ∈ done
  entered_iff : ∀ name, s.marks.find? name = some .entered ↔ name ∈ path

/-- Both searches succeed and stand at the same place again, or both report the same cycle, or the first is cut off as
too deep, which happens only where `P` holds. -/
inductive SameResult (P : Prop) (path : List String) :
    Except (Exception α) Search → Except (List String) (List String) → Prop
  | found {s : Search} {done : List String} : Follows s path done → SameResult P path (.ok s) (.ok done)
  | cycle (names : List String) : SameResult P path (.error (.theme (.cycle names))) (.error names)
  | tooDeep (h : P) (r : Except (List String) (List String)) : SameResult P path (.error .tooDeep) r

theorem sameResult_foldlM {P : Prop} {path names : List String} {f : Search → String → Except (Exception α) Search}
    {g : List String → String → Except (List String) (List String)}
    (hstep : ∀ name ∈ names, ∀ s done, Follows s path done → SameResult P path (f s name) (g done name))
    {s : Search} {done : List String} (hs : Follows s path done) :
    SameResult P path (names.foldlM f s) (names.foldlM g done) := by
  induction names generalizing s done with
  | nil => exact .found hs
  | cons name rest ih =>
    rw [List.foldlM_cons, List.foldlM_cons]
    have hfirst := hstep name List.mem_cons_self s done hs
    generalize f s name = x at hfirst
    generalize g done name = y at hfirst
    cases hfirst with
    | found hnext => exact ih (fun later hlater => hstep later (List.mem_cons_of_mem name hlater)) hnext
    | cycle names => exact .cycle names
    | tooDeep h r => exact .tooDeep h _

namespace Follows

variable {s : Search} {path done : List String} {name : String}

theorem find?_eq_none (h : Follows s path done) (hdone : name ∉ done) (hpath : name ∉ path) :
    s.marks.find? name = none := by
  cases hmark : s.marks.find? name with
  | none => rfl
  | some mark =>
    cases mark with
    | entered => exact absurd ((h.entered_iff name).mp hmark) hpath
    | left => exact absurd ((h.left_iff name).mp hmark) hdone

theorem enter (h : Follows s path done) (hdone : name ∉ done) : Follows (s.enter name) (path ++ [name]) done := by
  refine ⟨congrArg (· ++ [name]) h.path_eq, h.order_eq, fun x => ?_, fun x => ?_⟩
  · by_cases hx : x = name
    · subst hx
      simp [Search.enter, hdone]
    · simp only [Search.enter, Table.find?_insert_of_ne _ hx, h.left_iff]
  · by_cases hx : x = name
    · subst hx
      simp [Search.enter]
    · simp only [Search.enter, Table.find?_insert_of_ne _ hx, h.entered_iff, List.mem_append, List.mem_singleton, hx,
        or_false]

theorem leave (h : Follows s (path ++ [name]) done) (hpath : name ∉ path) :
    ∃ t, (s.leave name : Except (Exception α) Search) = .ok t ∧ Follows t path (done ++ [name]) := by
  have hpopped : (popped s.path : Except (Exception α) (List String)) = .ok path := by
    rw [h.path_eq, popped, if_neg (by simp), List.dropLast_concat]
  refine ⟨{ marks := s.marks.insert name .left, path, order := s.order ++ [name] }, ?_, rfl, ?_, fun x => ?_, fun x => ?_⟩
  · rw [Search.leave, bind_of_ok hpopped]
    rfl
  · exact congrArg (· ++ [name]) h.order_eq
  · by_cases hx : x = name
    · subst hx
      simp
    · simp only [Table.find?_insert_of_ne _ hx, h.left_iff, List.mem_append, List.mem_singleton, hx, or_false]
  · by_cases hx : x = name
    · subst hx
      simp [hpath]
    · simp only [Table.find?_insert_of_ne _ hx, h.entered_iff, List.mem_append, List.mem_singleton, hx, or_false]

end Follows

theorem placeOf_eq {path : List String} {name : String} (h : name ∈ path) :
    ∃ place, (placeOf path name : Except (Exception α) Nat) = .ok place ∧
      path.drop place = path.dropWhile (· ≠ name) := by
  have hfound : path.findIdx? (· = name) = some (path.findIdx (· = name)) :=
    List.findIdx?_eq_some_of_exists ⟨name, h, decide_eq_true rfl⟩
  refine ⟨path.findIdx (· = name), by rw [placeOf, hfound], ?_⟩
  rw [List.dropWhile_eq_drop_findIdx_not]
  simp

/-- Visiting a declared name does what the library does, unless the way to it is longer than is permitted. -/
theorem sameResult_visit {p : Palette α} (hclosed : p.Closed) {limit : Nat} {path done : List String} {name : String}
    (hname : name ∈ p.names) (hway : p.Way path name) {s : Search} (hs : Follows s path done) {depth : Nat}
    (hdepth : path.length + depth = limit) :
    SameResult (p.Descends limit) path (visit p depth s name) (p.visit path done name) := by
  fun_induction p.visit path done name generalizing s depth with
  | case1 path done name hmem =>
    cases depth with
    | zero => exact .tooDeep ⟨path, name, hdepth, hname, hway⟩ _
    | succ depth =>
      have hmark : s.marks.find? name = some .left := (hs.left_iff name).mpr hmem
      rw [visit, hmark]
      exact .found hs
  | case2 path done name hnew hpath =>
    cases depth with
    | zero => exact .tooDeep ⟨path, name, hdepth, hname, hway⟩ _
    | succ depth =>
      have hmark : s.marks.find? name = some .entered := (hs.entered_iff name).mpr hpath
      obtain ⟨place, hplace, hdrop⟩ := placeOf_eq (α := α) hpath
      rw [visit, hmark]
      simp only [hs.path_eq]
      rw [bind_of_ok hplace, hdrop]
      exact .cycle _
  | case3 path done name hnew hpath hdeclared ih =>
    cases depth with
    | zero => exact .tooDeep ⟨path, name, hdepth, hname, hway⟩ _
    | succ depth =>
      have hmark : s.marks.find? name = none := hs.find?_eq_none hnew hpath
      obtain ⟨e, he⟩ := (p.mem_names_iff name).mp hdeclared
      have hreferences : p.references name = e.references := Palette.references_of_find? he
      have hlonger : (path ++ [name]).length + depth = limit := by
        rw [List.length_append, List.length_singleton]
        omega
      have hsearch : SameResult (p.Descends limit) (path ++ [name])
          (e.references.foldlM (fun s reference => visit p depth s reference) (s.enter name))
          ((p.references name).foldlM (fun done reference => p.visit (path ++ [name]) done reference) done) := by
        rw [hreferences]
        refine sameResult_foldlM (fun reference href s done hs => ?_) (hs.enter hnew)
        have hrefers : p.Refers name reference := by rwa [Palette.Refers, hreferences]
        exact ih done reference (hclosed name reference hrefers) (hway.extend hpath hrefers) hs hlonger
      rw [visit, hmark]
      simp only
      rw [bind_of_ok (entry_eq he)]
      generalize e.references.foldlM (fun s reference => visit p depth s reference) (s.enter name) = x at hsearch
      generalize (p.references name).foldlM (fun done reference => p.visit (path ++ [name]) done reference) done = y
        at hsearch
      cases hsearch with
      | found hreached =>
        obtain ⟨t, ht, hleft⟩ := hreached.leave (α := α) hpath
        rw [bind_of_ok rfl, ht]
        exact .found hleft
      | cycle names => exact .cycle names
      | tooDeep h r => exact .tooDeep h _
  | case4 => contradiction

theorem order_agrees {p : Palette α} (hclosed : p.Closed) (depth : Nat) :
    AgreesUnless (p.Descends depth) (order depth p) (raise (p.order.mapError .cycle)) := by
  have hstart : Follows ⟨Table.empty, [], []⟩ [] [] := ⟨rfl, rfl, fun _ => by simp, fun _ => by simp⟩
  have hsearch : SameResult (p.Descends depth) []
      (p.names.foldlM (fun s name => visit p depth { s with path := [] } name) ⟨Table.empty, [], []⟩) p.order := by
    refine sameResult_foldlM (fun name hname s done hs => ?_) hstart
    have hagain : Follows { s with path := [] } [] done := ⟨rfl, hs.order_eq, hs.left_iff, hs.entered_iff⟩
    exact sameResult_visit hclosed hname (.start p name) hagain (Nat.zero_add depth)
  unfold order
  generalize p.names.foldlM (fun s name => visit p depth { s with path := [] } name) ⟨Table.empty, [], []⟩ = x at hsearch
  generalize p.order = y at hsearch
  cases hsearch with
  | found hs =>
    left
    rw [bind_of_ok rfl, hs.order_eq]
    rfl
  | cycle names => exact .of_eq rfl
  | tooDeep h r => exact .tooDeep h _

theorem order_eq {p : Palette α} (hclosed : p.Closed) {depth : Nat} (h : p.names.length < depth) :
    order depth p = raise (p.order.mapError .cycle) := (order_agrees hclosed depth).eq (Palette.not_descends h)

section Descent

variable {p : Palette α}

theorem visit_eq_tooDeep {depth : Nat} {s : Search} {name : String} {rest : List String}
    (hfirst : List.IsChain (fun name next => (p.references name).head? = some next) (name :: rest))
    (hdistinct : (name :: rest).Nodup) (hnew : ∀ other ∈ name :: rest, s.marks.find? other = none)
    (hdepth : depth ≤ rest.length) : visit p depth s name = .error .tooDeep := by
  induction depth generalizing s name rest with
  | zero => rfl
  | succ depth ih =>
    obtain ⟨next, more, rfl⟩ := List.exists_cons_of_length_pos (Nat.lt_of_lt_of_le (Nat.succ_pos depth) hdepth)
    obtain ⟨hrefers, hchain⟩ := List.isChain_cons_cons.mp hfirst
    obtain ⟨hname, hlater⟩ := List.nodup_cons.mp hdistinct
    obtain ⟨others, hreferences⟩ := List.head?_eq_some_iff.mp hrefers
    obtain ⟨e, he, -⟩ := Palette.refers_iff.mp (show p.Refers name next by simp [Palette.Refers, hreferences])
    have hentry : e.references = next :: others := (Palette.references_of_find? he).symm.trans hreferences
    have hunmarked : ∀ other ∈ next :: more, (s.enter name).marks.find? other = none := by
      intro other hother
      have hne : other ≠ name := fun heq => hname (heq ▸ hother)
      rw [Search.enter, Table.find?_insert_of_ne _ hne]
      exact hnew other (List.mem_cons_of_mem name hother)
    rw [visit, hnew name List.mem_cons_self]
    simp only
    rw [bind_of_ok (entry_eq he), hentry, List.foldlM_cons,
      bind_of_error (ih hchain hlater hunmarked (Nat.le_of_succ_le_succ hdepth))]
    rfl

/-- Names in a row, each of them the first that the one before refers to, are followed to the permitted depth. -/
theorem order_eq_tooDeep {depth : Nat} {names : List String} (hroot : names.head? = p.names.head?)
    (hfirst : names.IsChain fun name next => (p.references name).head? = some next) (hdistinct : names.Nodup)
    (hdepth : depth < names.length) : order depth p = .error .tooDeep := by
  obtain ⟨root, rest, rfl⟩ := List.exists_cons_of_length_pos (Nat.zero_lt_of_lt hdepth)
  obtain ⟨others, hnames⟩ := List.head?_eq_some_iff.mp hroot.symm
  have hvisit := visit_eq_tooDeep (s := ⟨Table.empty, [], []⟩) hfirst hdistinct (fun _ _ => rfl)
    (Nat.le_of_lt_succ hdepth)
  rw [order, hnames, List.foldlM_cons, bind_of_error hvisit]
  rfl

end Descent

variable [Scalar α]

section Colors

def computeNext (p : Palette α) (hues : HueTable α) (colors : Table (Color α)) (name : String) :
    Except (Exception α) (Table (Color α)) := do
  let e ← entry p.entries name
  return colors.insert name (← eval hues colors e)

def listed (t : Table β) (names : List String) : Except (Exception α) (Table β) := do
  let entries ← names.mapM fun name => do return (name, ← entry t.entries name)
  return Table.ofList entries

/-- Computes the colors of a palette in a given order. -/
def computeAll (p : Palette α) (hues : HueTable α) (order : List String) : Except (Exception α) (Table (Color α)) := do
  let colors ← order.foldlM (computeNext p hues) Table.empty
  listed colors p.names

def evaluate (depth : Nat) (p : Palette α) (hues : HueTable α) : Except (Exception α) (Table (Color α)) := do
  raise (p.checkReferences hues)
  computeAll p hues (← order depth p)

def readEntries (depth : Nat) (entries : List (String × Value)) : Except (Exception α) (Palette α) :=
  entries.foldlM (fun t entry => do return t.insert entry.1 (← readExpression depth entry.2)) Table.empty

def resolve (depths : Depths) (entries : List (String × Value)) (hues : HueTable α) :
    Except (Exception α) (Table (Color α)) := do
  evaluate depths.search (← readEntries depths.nesting entries) hues

/-- The literals of a palette have bytes as channels. -/
def HasBytes (p : Palette α) : Prop := ∀ name e, p.find? name = some e → e.HasBytes

omit [Scalar α] in
theorem HasBytes.insert {p : Palette α} (h : HasBytes p) (name : String) {e : Expression α} (he : e.HasBytes) :
    HasBytes (p.insert name e) := by
  intro other e' hfound
  by_cases hsame : other = name
  · rw [hsame, Table.find?_insert_self] at hfound
    obtain rfl := Option.some.inj hfound
    exact he
  · rw [p.find?_insert_of_ne hsame] at hfound
    exact h other e' hfound

theorem hasBytes_of_ofValues {entries : List (String × Value)} {p : Palette α}
    (h : Palette.ofValues entries = .ok p) : HasBytes p := by
  have hempty : HasBytes (Table.empty : Palette α) := by
    intro name e hfound
    cases hfound
  refine foldlM_invariant (fun entry _ p next hp hstep => ?_) h hempty
  obtain ⟨e, he, hinsert⟩ := bind_eq_ok.mp hstep
  obtain rfl := pure_eq_ok.mp hinsert
  exact hp.insert entry.1 (hasBytes_of_ofValue he)

theorem computeNext_eq [DividesChannels α] {p : Palette α} (hp : HasBytes p) {hues : HueTable α} {name : String}
    (hname : name ∈ p.names) (colors : Table (Color α)) :
    computeNext p hues colors name = raise (p.computeNext hues colors name) := by
  obtain ⟨e, he⟩ := (p.mem_names_iff name).mp hname
  rw [computeNext, bind_of_ok (entry_eq he), Palette.computeNext_of_find? he, raise_bind, eval_eq _ _ (hp name e he)]
  rfl

omit [Scalar α] in
theorem listed_eq {t : Table β} {names : List String} (hdistinct : names.Nodup) (h : names ⊆ t.names) :
    (listed t names : Except (Exception α) (Table β)) = .ok (t.select names hdistinct) := by
  have hentries : ∀ names ⊆ t.names,
      (names.mapM fun name => do return (name, ← entry t.entries name) : Except (Exception α) (List (String × β))) =
        .ok (names.filterMap fun name => (t.find? name).map fun value => (name, value)) := by
    intro names h
    induction names with
    | nil => rfl
    | cons name rest ih =>
      obtain ⟨hname, hrest⟩ := List.cons_subset.mp h
      obtain ⟨value, hvalue⟩ := (t.mem_names_iff name).mp hname
      rw [List.mapM_cons, entry_eq hvalue, ih hrest, List.filterMap_cons, hvalue]
      rfl
  have hkeys : ((names.filterMap fun name => (t.find? name).map fun value => (name, value)).map Prod.fst).Nodup :=
    (Table.map_fst_filterMap_sublist t.find? names).nodup hdistinct
  rw [listed, bind_of_ok (hentries names h)]
  exact congrArg Except.ok (Table.ext (Table.entries_ofList hkeys))

theorem computeAll_eq [DividesChannels α] {p : Palette α} (hp : HasBytes p) {hues : HueTable α}
    (hdeclared : p.Declared hues) {names : List String} (horder : p.order = .ok names) :
    computeAll p hues names = raise (p.evaluate hues) := by
  obtain ⟨harranged, hall⟩ := Palette.arranged_of_order hdeclared.closed horder
  have hsteps : names.foldlM (computeNext p hues) Table.empty =
      raise (names.foldlM (p.computeNext hues) Table.empty) := by
    rw [raise, mapError_foldlM]
    exact foldlM_congr (fun name hname colors => computeNext_eq hp (harranged.mem_names hname) colors) _
  rw [Palette.evaluate_of_order hdeclared horder, computeAll, hsteps]
  cases hcolors : names.foldlM (p.computeNext hues) Table.empty with
  | error e => rfl
  | ok colors =>
    have hnames := (Palette.equations_of_compute harranged hcolors).1
    rw [bind_of_ok (raise_ok colors)]
    exact listed_eq p.distinct (hnames ▸ hall)

theorem evaluate_agrees [DividesChannels α] {p : Palette α} (hp : HasBytes p) (hues : HueTable α) (depth : Nat) :
    AgreesUnless (p.Descends depth) (evaluate depth p hues) (raise (p.evaluate hues)) := by
  unfold evaluate
  cases hcheck : p.checkReferences hues with
  | error e =>
    have hfailed : p.evaluate hues = .error e := bind_of_error (bind_of_error hcheck _) _
    rw [hfailed]
    exact .of_eq rfl
  | ok u =>
    have hdeclared : p.Declared hues := Palette.checkReferences_eq_ok_iff.mp hcheck
    have hsame : (raise (p.order.mapError .cycle) >>= computeAll p hues) = raise (p.evaluate hues) := by
      cases horder : p.order with
      | error names =>
        have hchecked : p.checkedOrder hues = .error (.cycle names) := by
          rw [Palette.checkedOrder, bind_of_ok hcheck, horder]
          rfl
        have hfailed : p.evaluate hues = .error (.cycle names) := bind_of_error hchecked _
        rw [hfailed]
        rfl
      | ok names =>
        rw [mapError_ok, bind_of_ok (raise_ok names)]
        exact computeAll_eq hp hdeclared horder
    rw [bind_of_ok (raise_ok u), ← hsame]
    exact (order_agrees hdeclared.closed depth).bind fun _ _ => .of_eq rfl

theorem readEntries_agrees (depth : Nat) (entries : List (String × Value)) :
    AgreesUnless (depth < Value.depthOfEntries entries) (readEntries depth entries : Except (Exception α) (Palette α))
      ((Palette.ofValues entries).mapError exceptionOf) := by
  unfold readEntries Palette.ofValues Palette.ofEntries
  rw [mapError_foldlM]
  refine AgreesUnless.foldlM (fun entry hentry t => ?_) _
  rw [mapError_bind]
  have hread := readExpression_agrees (α := α) depth entry.2
  exact (hread.of_le (Value.depth_le_depthOfEntries hentry)).bind fun e _ => .of_eq rfl

theorem resolve_agrees [DividesChannels α] (depths : Depths) (entries : List (String × Value)) (hues : HueTable α) :
    AgreesUnless
      (depths.nesting < Value.depthOfEntries entries ∨ ∃ p : Palette α, Palette.ofValues entries = .ok p ∧
        p.Descends depths.search)
      (resolve depths entries hues)
      ((Palette.ofValues entries >>= fun p => Theme.fault (p.evaluate hues)).mapError exceptionOf) := by
  rw [mapError_bind]
  refine ((readEntries_agrees depths.nesting entries).mono Or.inl).bind fun p hp => ?_
  have hvalues : Palette.ofValues entries = .ok p := (mapError_eq_ok_iff _).mp hp
  rw [mapError_fault]
  exact (evaluate_agrees (hasBytes_of_ofValues hvalues) hues depths.search).mono fun h => .inr ⟨p, hvalues, h⟩

end Colors

end Raising

end EditorTheme
