import EditorTheme.Proofs.Sequencing
import EditorTheme.Proofs.Value

/-!
Failures of a compilation: those that are faults of the theme, and what becomes of a fault that shows a value.
-/

set_option autoImplicit false
set_option relaxedAutoImplicit false

namespace EditorTheme

variable {α β : Type}

namespace Theme

theorem fault_eq_ok_iff {r : Except (ThemeError α) β} {b : β} : fault r = .ok b ↔ r = .ok b := mapError_eq_ok_iff _

theorem fault_eq_error_iff {r : Except (ThemeError α) β} {failure : Failure α} :
    fault r = .error failure ↔ ∃ e, r = .error e ∧ failure = .theme e := by
  cases r <;> simp [fault, Except.mapError, eq_comm]

end Theme

theorem Described.ext {d d' : Described} (h : d.value = d'.value) : d = d' := by
  obtain ⟨v, words, hwords⟩ := d
  obtain ⟨v', words', hwords'⟩ := d'
  obtain rfl : v = v' := h
  obtain rfl := Option.some.inj (hwords.symm.trans hwords')
  rfl

theorem Described.of?_value (d : Described) : of? d.value = some d := by
  unfold of?
  split
  · next words hwords => exact congrArg some (ext rfl)
  · next hnone => cases hnone.symm.trans d.describes

theorem Described.of?_eq_none_iff {v : Value} : of? v = none ↔ ¬ v.Writable := by
  rw [← v.exists_describe?_iff]
  unfold of?
  split
  · next words hwords => simp [hwords]
  · next hnone => simp [hnone]

namespace Failure

/-- How a value ends a compilation: with a fault that shows it, or without a fault of the theme, because of an integer
in it that is not written. -/
inductive Shows (fault : Described → ThemeError α) : Value → Failure α → Prop
  | fault (d : Described) : Shows fault d.value (.theme (fault d))
  | integerTooLong {v : Value} {n : Int} (h : v.Holds n) (hlong : 10 ^ Value.digitLimit ≤ n.natAbs) :
      Shows fault v .integerTooLong

variable {fault : Described → ThemeError α} {v : Value} {failure : Failure α}

theorem showing_value (fault : Described → ThemeError α) (d : Described) : showing d.value fault = .theme (fault d) := by
  rw [showing, d.of?_value]

theorem showing_of_not_writable (fault : Described → ThemeError α) (h : ¬ v.Writable) :
    showing v fault = .integerTooLong := by
  rw [showing, Described.of?_eq_none_iff.mpr h]

theorem Shows.showing_eq (h : Shows fault v failure) : showing v fault = failure := by
  cases h with
  | fault d => exact showing_value fault d
  | integerTooLong h hlong => exact showing_of_not_writable fault fun hall => absurd (hall _ h) (Nat.not_lt.mpr hlong)

theorem shows_showing (fault : Described → ThemeError α) (v : Value) : Shows fault v (showing v fault) := by
  by_cases h : v.Writable
  · obtain ⟨words, hwords⟩ := v.exists_describe?_iff.mpr h
    exact showing_value fault ⟨v, words, hwords⟩ ▸ .fault ⟨v, words, hwords⟩
  · obtain ⟨n, hn⟩ := not_forall.mp h
    obtain ⟨hmem, hlong⟩ := Classical.not_imp.mp hn
    exact showing_of_not_writable fault h ▸ .integerTooLong hmem (Nat.not_lt.mp hlong)

theorem shows_iff : Shows fault v failure ↔ failure = showing v fault :=
  ⟨fun h => h.showing_eq.symm, fun h => h ▸ shows_showing fault v⟩

theorem showing_eq_integerTooLong_iff : showing v fault = .integerTooLong ↔ ¬ v.Writable := by
  refine ⟨fun h => ?_, showing_of_not_writable fault⟩
  unfold showing at h
  split at h
  · cases h
  · next hnone => exact Described.of?_eq_none_iff.mp hnone

end Failure

end EditorTheme
