import EditorTheme.Proofs.Failure
import EditorTheme.Proofs.Raising.Operations

/-!
Writing values with operations that can raise, as the message of a fault asks for it. It raises for an integer that has
too many digits, and for lists and tables that lie deeper inside each other than is permitted; whichever comes first
from the left.
-/

set_option autoImplicit false
set_option relaxedAutoImplicit false

namespace EditorTheme.Raising

open EditorTheme.Value (depthOfItems depthOfEntries describeItems? describeEntries?)

variable {α β γ : Type}

mutual

def describe : Nat → Value → Except (Exception α) String
  | _, .absent => .ok "None"
  | _, .bool b => .ok (if b then "True" else "False")
  | _, .int n => if Value.isTooLong n then .error .integerTooLong else .ok (toString n)
  | _, .number x => .ok (Decimal.text x)
  | _, .text s => .ok (Text.quoted s)
  | _, .moment m => .ok m.text
  | 0, .list _ => .error .tooDeep
  | depth + 1, .list items => do return "[" ++ ", ".intercalate (← describeItems depth items) ++ "]"
  | 0, .table _ => .error .tooDeep
  | depth + 1, .table entries => do
    return "\x7b" ++ ", ".intercalate (← describeEntries depth entries) ++ "\x7d"

def describeItems : Nat → List Value → Except (Exception α) (List String)
  | _, [] => .ok []
  | depth, v :: rest => do return (← describe depth v) :: (← describeItems depth rest)

def describeEntries : Nat → List (String × Value) → Except (Exception α) (List String)
  | _, [] => .ok []
  | depth, (name, v) :: rest => do
    return (Text.quoted name ++ ": " ++ (← describe depth v)) :: (← describeEntries depth rest)

end

/-- A fault that shows a value. Its message is written first. -/
def fail (depth : Nat) (v : Value) (fault : Described → ThemeError α) : Except (Exception α) β := do
  let _ ← (describe depth v : Except (Exception α) String)
  .error (exceptionOf (.showing v fault))

/-- What is not there is an integer that is not written. -/
def written : Option β → Except (Exception α) β
  | some b => .ok b
  | none => .error .integerTooLong

theorem written_bind (o : Option β) (f : β → Option γ) :
    (written (o >>= f) : Except (Exception α) γ) = (written o >>= fun b => written (f b)) := by
  cases o <;> rfl

mutual

theorem describe_agrees (depth : Nat) (v : Value) :
    AgreesUnless (depth < v.depth) (describe depth v : Except (Exception α) String) (written v.describe?) := by
  cases v with
  | int n =>
    rw [describe, Value.describe?]
    split_ifs <;> exact .of_eq rfl
  | list items =>
    cases depth with
    | zero => exact .tooDeep (Nat.succ_pos _) _
    | succ depth =>
      rw [describe, Value.describe?, written_bind]
      exact ((describeItems_agrees depth items).mono Nat.succ_lt_succ).bind fun words _ => .of_eq rfl
  | table entries =>
    cases depth with
    | zero => exact .tooDeep (Nat.succ_pos _) _
    | succ depth =>
      rw [describe, Value.describe?, written_bind]
      exact ((describeEntries_agrees depth entries).mono Nat.succ_lt_succ).bind fun words _ => .of_eq rfl
  | _ => exact .of_eq rfl

theorem describeItems_agrees (depth : Nat) (items : List Value) :
    AgreesUnless (depth < depthOfItems items) (describeItems depth items : Except (Exception α) (List String))
      (written (describeItems? items)) := by
  cases items with
  | nil => exact .of_eq rfl
  | cons v rest =>
    rw [describeItems, describeItems?, written_bind]
    refine ((describe_agrees depth v).of_le (Nat.le_max_left _ _)).bind fun words _ => ?_
    rw [written_bind]
    exact ((describeItems_agrees depth rest).of_le (Nat.le_max_right _ _)).bind fun others _ => .of_eq rfl

theorem describeEntries_agrees (depth : Nat) (entries : List (String × Value)) :
    AgreesUnless (depth < depthOfEntries entries) (describeEntries depth entries : Except (Exception α) (List String))
      (written (describeEntries? entries)) := by
  cases entries with
  | nil => exact .of_eq rfl
  | cons e rest =>
    rw [describeEntries, describeEntries?, written_bind]
    refine ((describe_agrees depth e.2).of_le (Nat.le_max_left _ _)).bind fun words _ => ?_
    rw [written_bind]
    exact ((describeEntries_agrees depth rest).of_le (Nat.le_max_right _ _)).bind fun others _ => .of_eq rfl

end

theorem fail_agrees (depth : Nat) (v : Value) (fault : Described → ThemeError α) :
    AgreesUnless (depth < v.depth) (fail depth v fault : Except (Exception α) β)
      (.error (exceptionOf (.showing v fault))) := by
  rcases describe_agrees (α := α) depth v with h | ⟨hdeep, h⟩
  · left
    rw [fail, h]
    cases hwords : v.describe? with
    | some words => rfl
    | none =>
      have hnot : ¬ v.Writable := by
        rw [← v.exists_describe?_iff, hwords]
        simp
      rw [Failure.showing_of_not_writable fault hnot]
      rfl
  · right
    exact ⟨hdeep, bind_of_error h _⟩

end EditorTheme.Raising
