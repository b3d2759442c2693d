import EditorTheme.Color.Rgb
import EditorTheme.Proofs.Sequencing
import EditorTheme.Table
import EditorTheme.ThemeError

/-!
Operations that do not apply everywhere, each with an exception of its own. A compilation written with them has to guard
them; the library itself has none, because its types and its case splits leave nothing out. What no guard prevents is
that calls go deeper inside each other than an interpreter permits.
-/

set_option autoImplicit false
set_option relaxedAutoImplicit false

namespace EditorTheme.Raising

/-- What ends a run: a fault of the theme, or an operation that does not apply. -/
inductive Exception (α : Type) where
  | theme (error : ThemeError α)
  /-- Entries without one of the name. -/
  | noEntry (name : String)
  /-- A list does not hold the name. -/
  | notListed (name : String)
  /-- A list has no item at the place. -/
  | noItem (place : Nat)
  /-- A list of this length is not one of four fields. -/
  | notFour (count : Nat)
  /-- A list has no last item to take off. -/
  | nothingLeft
  | notText (value : Value)
  | notTable (value : Value)
  | notNumber (value : Value)
  | notHexadecimal (text : List Char)
  /-- An integer beyond the largest number. -/
  | tooLarge (value : Int)
  | divisionByZero
  /-- An integer has too many digits to be written. -/
  | integerTooLong
  /-- More calls inside each other than are permitted. -/
  | tooDeep
  | notUtf8

/-- How many calls inside each other an interpreter permits. -/
structure Depths where
  /-- Visits of names, each from the one before. -/
  search : Nat
  /-- Lists and tables that are written, each inside the one before. -/
  nesting : Nat

variable {α β γ δ : Type}

def exceptionOf : Failure α → Exception α
  | .theme e => .theme e
  | .hueTooLarge _ n => .tooLarge n
  | .notUtf8 => .notUtf8
  | .integerTooLong => .integerTooLong

def raise (r : Except (ThemeError α) β) : Except (Exception α) β := r.mapError .theme

@[simp] theorem raise_ok (b : β) : (raise (.ok b) : Except (Exception α) β) = .ok b := rfl

theorem raise_bind (x : Except (ThemeError α) β) (f : β → Except (ThemeError α) γ) :
    raise (x >>= f) = (raise x >>= fun b => raise (f b)) := mapError_bind _ x f

theorem mapError_fault (r : Except (ThemeError α) β) : (Theme.fault r).mapError exceptionOf = raise r := by
  cases r <;> rfl

/-- A run ends as another one does, or is cut off as too deep, which happens only where `P` holds. -/
def AgreesUnless (P : Prop) (r s : Except (Exception α) β) : Prop := r = s ∨ P ∧ r = .error .tooDeep

namespace AgreesUnless

variable {P Q : Prop} {r s : Except (Exception α) β}

theorem of_eq (h : r = s) : AgreesUnless P r s := .inl h

theorem tooDeep (h : P) (s : Except (Exception α) β) : AgreesUnless P (.error .tooDeep) s := .inr ⟨h, rfl⟩

theorem mono (hr : AgreesUnless P r s) (h : P → Q) : AgreesUnless Q r s := hr.imp_right (And.imp_left h)

theorem of_le {depth less more : Nat} (hr : AgreesUnless (depth < less) r s) (h : less ≤ more) :
    AgreesUnless (depth < more) r s := hr.mono fun hdeep => Nat.lt_of_lt_of_le hdeep h

theorem eq (hr : AgreesUnless P r s) (h : ¬ P) : r = s := hr.resolve_right fun hdeep => h hdeep.1

theorem trans {t : Except (Exception α) β} (hr : AgreesUnless P r s) (hs : AgreesUnless P s t) : AgreesUnless P r t := by
  rcases hr with rfl | hdeep
  · exact hs
  · exact .inr hdeep

theorem bind (hr : AgreesUnless P r s) {f g : β → Except (Exception α) γ}
    (h : ∀ b, s = .ok b → AgreesUnless P (f b) (g b)) : AgreesUnless P (r >>= f) (s >>= g) := by
  rcases hr with rfl | ⟨hp, rfl⟩
  · cases r with
    | error e => exact .of_eq rfl
    | ok b => exact h b rfl
  · exact .tooDeep hp _

theorem foldlM {f g : γ → δ → Except (Exception α) γ} {items : List δ}
    (h : ∀ item ∈ items, ∀ c, AgreesUnless P (f c item) (g c item)) (start : γ) :
    AgreesUnless P (items.foldlM f start) (items.foldlM g start) := by
  induction items generalizing start with
  | nil => exact .of_eq rfl
  | cons item rest ih =>
    rw [List.foldlM_cons, List.foldlM_cons]
    refine (h item List.mem_cons_self start).bind fun next _ => ?_
    exact ih (fun later hlater => h later (List.mem_cons_of_mem item hlater)) next

end AgreesUnless

section Operations

def entry (entries : List (String × β)) (name : String) : Except (Exception α) β :=
  match entries.lookup name with
  | some value => .ok value
  | none => .error (.noEntry name)

def item (items : List β) (place : Nat) : Except (Exception α) β :=
  match items[place]? with
  | some value => .ok value
  | none => .error (.noItem place)

def placeOf (names : List String) (name : String) : Except (Exception α) Nat :=
  match names.findIdx? (· = name) with
  | some place => .ok place
  | none => .error (.notListed name)

def popped (items : List β) : Except (Exception α) (List β) :=
  if items.isEmpty then .error .nothingLeft else .ok items.dropLast

def textOf : Value → Except (Exception α) String
  | .text s => .ok s
  | v => .error (.notText v)

def entriesOf : Value → Except (Exception α) (List (String × Value))
  | .table entries => .ok entries
  | v => .error (.notTable v)

/-- What stands under a name. A look-up that raises is the theme's fault. -/
def lookUp (entries : List (String × β)) (name : String) (error : ThemeError α) : Except (Exception α) β :=
  match (entry entries name : Except (Exception α) β) with
  | .ok value => .ok value
  | .error _ => .error (.theme error)

def hexNumber : List Char → Except (Exception α) Int
  | [high, low] =>
    match Rgb.channel? high low with
    | some n => .ok n
    | none => .error (.notHexadecimal [high, low])
  | cs => .error (.notHexadecimal cs)

def quotient [Scalar α] (x y : α) : Except (Exception α) α :=
  if y == 0 then .error .divisionByZero else .ok (x / y)

theorem entry_eq {t : Table β} {name : String} {value : β} (h : t.find? name = some value) :
    (entry t.entries name : Except (Exception α) β) = .ok value := by
  have hlookup : t.entries.lookup name = some value := h
  rw [entry, hlookup]

theorem lookUp_of_some {t : Table β} {name : String} {value : β} (h : t.find? name = some value)
    (error : ThemeError α) : lookUp t.entries name error = .ok value := by
  rw [lookUp, entry_eq h]

theorem lookUp_of_none {t : Table β} {name : String} (h : t.find? name = none) (error : ThemeError α) :
    lookUp t.entries name error = .error (.theme error) := by
  have hlookup : t.entries.lookup name = none := h
  rw [lookUp, entry, hlookup]

theorem quotient_eq [Scalar α] (x : α) {y : α} (h : (y == 0) = false) : quotient x y = .ok (x / y) := by
  simp [quotient, h]

end Operations

end EditorTheme.Raising
