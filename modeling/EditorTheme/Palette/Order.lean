import EditorTheme.Palette

/-!
The order in which the colors of a palette are computed: each after the colors that it refers to, and
otherwise as they were declared. The search goes depth first from each name in turn; it ends because the path
that leads to a name holds no name twice, and it reports a cycle when it comes back to its own path.
-/

set_option autoImplicit false
set_option relaxedAutoImplicit false

namespace EditorTheme.Palette

variable {α : Type}

theorem length_filter_extend_lt {names path : List String} {name : String} (hn : name ∈ names)
    (hp : name ∉ path) :
    (names.filter (· ∉ path ++ [name])).length < (names.filter (· ∉ path)).length := by
  have hsub : names.filter (· ∉ path ++ [name]) =
      (names.filter (· ∉ path)).filter (· ≠ name) := by
    rw [List.filter_filter]
    congr 1
    funext x
    simp [and_comm]
  rw [hsub]
  have hmem : name ∈ names.filter (· ∉ path) := by simp [hn, hp]
  exact List.length_filter_lt_length_iff_exists.mpr ⟨name, hmem, by simp⟩

/-- Puts a name, after everything that it needs, at the end of the names that are done. `path` leads from the
name where the search began to this one; coming back to it is an error that holds the cycle, closed by its
first name. -/
def visit (p : Palette α) (path done : List String) (name : String) :
    Except (List String) (List String) :=
  if name ∈ done then .ok done
  else if _hp : name ∈ path then .error (path.dropWhile (· ≠ name) ++ [name])
  else if _hn : name ∈ p.names then do
    let done ← (p.references name).foldlM
      (fun done reference => visit p (path ++ [name]) done reference) done
    return done ++ [name]
  else .ok done
termination_by (p.names.filter (· ∉ path)).length
decreasing_by exact length_filter_extend_lt _hn _hp

/-- The names of a palette, each after those that it refers to, or a cycle. -/
def order (p : Palette α) : Except (List String) (List String) :=
  p.names.foldlM (fun done name => visit p [] done name) []

end EditorTheme.Palette
