import EditorTheme.ThemeError
import Mathlib.Algebra.Group.Nat.Defs
import Mathlib.Tactic.SplitIfs

/-!
Which values have a text, and how deep values lie inside each other. A value is written unless an integer somewhere in it
has too many digits; a fault that would show such a value is not reported.
-/

set_option autoImplicit false
set_option relaxedAutoImplicit false

namespace EditorTheme

namespace Value

/-- The integers in a value, however deep. -/
inductive Holds : Value → Int → Prop
  | int (n : Int) : Holds (.int n) n
  | item {items : List Value} {v : Value} {n : Int} (hmem : v ∈ items) (h : Holds v n) : Holds (.list items) n
  | entry {entries : List (String × Value)} {e : String × Value} {n : Int} (hmem : e ∈ entries) (h : Holds e.2 n) :
      Holds (.table entries) n

def Writable (v : Value) : Prop := ∀ n, v.Holds n → n.natAbs < 10 ^ digitLimit

theorem nat_pow_ten (k : Nat) : Nat.pow 10 k = 10 ^ k := rfl

theorem isTooLong_iff {n : Int} : isTooLong n = true ↔ ¬ n.natAbs < 10 ^ digitLimit := by
  rw [isTooLong, nat_pow_ten, decide_eq_true_iff, Nat.not_lt]

theorem writable_int_iff {n : Int} : (Value.int n).Writable ↔ n.natAbs < 10 ^ digitLimit := by
  constructor
  · intro h
    exact h n (.int n)
  · rintro h _ ⟨⟩
    exact h

theorem writable_list_iff {items : List Value} : (Value.list items).Writable ↔ ∀ v ∈ items, v.Writable := by
  constructor
  · intro h v hv n hn
    exact h n (.item hv hn)
  · rintro h n (_ | ⟨hv, hn⟩)
    exact h _ hv n hn

theorem writable_table_iff {entries : List (String × Value)} :
    (Value.table entries).Writable ↔ ∀ e ∈ entries, e.2.Writable := by
  constructor
  · intro h e he n hn
    exact h n (.entry he hn)
  · rintro h n (_ | _ | ⟨he, hn⟩)
    exact h _ he n hn

mutual

theorem exists_describe?_iff (v : Value) : (∃ words, v.describe? = some words) ↔ v.Writable := by
  cases v with
  | int n =>
    rw [writable_int_iff, describe?]
    split_ifs with h
    · exact iff_of_false (fun hwords => nomatch hwords) (isTooLong_iff.mp h)
    · exact iff_of_true ⟨_, rfl⟩ (Classical.not_not.mp (mt isTooLong_iff.mpr h))
  | list items =>
    rw [writable_list_iff, ← exists_describeItems?_iff items, describe?]
    cases describeItems? items <;> simp
  | table entries =>
    rw [writable_table_iff, ← exists_describeEntries?_iff entries, describe?]
    cases describeEntries? entries <;> simp
  | _ => exact iff_of_true ⟨_, rfl⟩ fun _ h => nomatch h

theorem exists_describeItems?_iff (items : List Value) :
    (∃ words, describeItems? items = some words) ↔ ∀ v ∈ items, v.Writable := by
  cases items with
  | nil => exact iff_of_true ⟨[], rfl⟩ (by simp)
  | cons v rest =>
    rw [List.forall_mem_cons, ← exists_describe?_iff v, ← exists_describeItems?_iff rest, describeItems?]
    cases v.describe? <;> cases describeItems? rest <;> simp

theorem exists_describeEntries?_iff (entries : List (String × Value)) :
    (∃ words, describeEntries? entries = some words) ↔ ∀ e ∈ entries, e.2.Writable := by
  cases entries with
  | nil => exact iff_of_true ⟨[], rfl⟩ (by simp)
  | cons e rest =>
    rw [List.forall_mem_cons, ← exists_describe?_iff e.2, ← exists_describeEntries?_iff rest, describeEntries?]
    cases e.2.describe? <;> cases describeEntries? rest <;> simp

end

section Depth

mutual

def depth : Value → Nat
  | .list items => depthOfItems items + 1
  | .table entries => depthOfEntries entries + 1
  | _ => 0

def depthOfItems : List Value → Nat
  | [] => 0
  | v :: rest => max v.depth (depthOfItems rest)

def depthOfEntries : List (String × Value) → Nat
  | [] => 0
  | (_, v) :: rest => max v.depth (depthOfEntries rest)

end

variable {entries : List (String × Value)}

theorem depth_le_depthOfEntries {e : String × Value} (h : e ∈ entries) : e.2.depth ≤ depthOfEntries entries := by
  induction entries with
  | nil => cases h
  | cons first rest ih =>
    rcases List.mem_cons.mp h with rfl | hrest
    · exact Nat.le_max_left _ _
    · exact Nat.le_trans (ih hrest) (Nat.le_max_right _ _)

theorem depth_le_of_lookup {name : String} {v : Value} (h : entries.lookup name = some v) :
    v.depth ≤ depthOfEntries entries := by
  obtain ⟨before, after, rfl, -⟩ := List.lookup_eq_some_iff.mp h
  exact depth_le_depthOfEntries (e := (name, v)) (by simp)

theorem depthOfEntries_lt_of_lookup {name : String} {inner : List (String × Value)}
    (h : entries.lookup name = some (.table inner)) : depthOfEntries inner < depthOfEntries entries :=
  depth_le_of_lookup h

end Depth

end Value

end EditorTheme
