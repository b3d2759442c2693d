import EditorTheme.Value

/-!
Tables inside tables, reached by a path of keys. On its way a path makes the tables that are missing; through
a list of tables it goes on in the last one.
-/

set_option autoImplicit false
set_option relaxedAutoImplicit false

namespace EditorTheme.Toml

abbrev Entries := List (String × Value)

def changeLast (change : Value → Option Value) (items : List Value) : Option (List Value) := do
  let last ← items.getLast?
  return items.dropLast ++ [← change last]

/-- Changes the table at a path. `throughLists` lets the path go on in the last table of a list. -/
def changeAt (throughLists : Bool) (change : Entries → Option Entries) : List String → Entries → Option Entries
  | [], entries => change entries
  | key :: path, entries => do
    let inner : Value → Option Value
      | .table sub => do return .table (← changeAt throughLists change path sub)
      | _ => none
    let next ← match (entries.lookup key).getD (.table []) with
      | .list items =>
        if throughLists then do pure (Value.list (← changeLast inner items)) else none
      | v => inner v
    return insertEntry key next entries

def addNew (key : String) (value : Value) (entries : Entries) : Option Entries :=
  if (entries.lookup key).isSome then none else some (entries ++ [(key, value)])

/-- Adds an empty table to the list of a key; the list begins here if the key is new. -/
def appendTable (key : String) (entries : Entries) : Option Entries :=
  match entries.lookup key with
  | none => some (entries ++ [(key, .list [.table []])])
  | some (.list items) => some (insertEntry key (.list (items ++ [.table []])) entries)
  | some _ => none

end EditorTheme.Toml
