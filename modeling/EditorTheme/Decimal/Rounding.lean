/-!
Rounding a quotient of naturals to a natural, with ties to even. The quotient is exact, so the only
decision is which neighbour is nearer.
-/

set_option autoImplicit false
set_option relaxedAutoImplicit false

namespace EditorTheme.Decimal

/-- The natural nearest to `num / den`; a half goes to the even neighbour. -/
def nearestDiv (num den : Nat) : Nat :=
  let quotient := num / den
  let rest := num % den
  if 2 * rest < den then quotient
  else if den < 2 * rest then quotient + 1
  else if quotient % 2 = 0 then quotient
  else quotient + 1

theorem nearestDiv_mul_self (n : Nat) {den : Nat} (h : 0 < den) : nearestDiv (n * den) den = n := by
  have hq : n * den / den = n := Nat.mul_div_cancel n h
  have hr : n * den % den = 0 := Nat.mul_mod_left n den
  simp [nearestDiv, hq, hr, h]

theorem nearestDiv_le_succ (num den : Nat) : nearestDiv num den ≤ num / den + 1 := by
  simp only [nearestDiv]
  split
  · omega
  · split
    · omega
    · split <;> omega

theorem nearestDiv_le {num den bound : Nat} (hd : 0 < den) (h : num ≤ bound * den) :
    nearestDiv num den ≤ bound := by
  rcases Nat.lt_or_ge num (bound * den) with hlt | hge
  · have hq : num / den < bound := (Nat.div_lt_iff_lt_mul hd).mpr hlt
    have hs := nearestDiv_le_succ num den
    omega
  · have he : num = bound * den := Nat.le_antisymm h hge
    have hn : nearestDiv num den = bound := by rw [he, nearestDiv_mul_self bound hd]
    exact Nat.le_of_eq hn

end EditorTheme.Decimal
