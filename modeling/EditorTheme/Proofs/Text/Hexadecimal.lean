import EditorTheme.Text.Quoted
import Mathlib.Data.Nat.Basic

/-!
Hexadecimal digits. Digits that are filled up to a width come one by one from the remainders of the number.
-/

set_option autoImplicit false
set_option relaxedAutoImplicit false

namespace EditorTheme.Text

def hexAlphabet : List Char := "0123456789abcdef".toList

theorem digitChar_mem_hexAlphabet : ∀ n < 16, Nat.digitChar n ∈ hexAlphabet := by
  decide

theorem mem_hexAlphabet_of_mem_toDigits {c : Char} {n : Nat} (h : c ∈ Nat.toDigits 16 n) : c ∈ hexAlphabet := by
  induction n using Nat.strong_induction_on with
  | _ n ih =>
    by_cases hn : n < 16
    · rw [Nat.toDigits_of_lt_base hn, List.mem_singleton] at h
      rw [h]
      exact digitChar_mem_hexAlphabet n hn
    · rw [Nat.toDigits_of_base_le (by decide) (by omega), List.mem_append, List.mem_singleton] at h
      rcases h with hfront | rfl
      · exact ih (n / 16) (by omega) hfront
      · exact digitChar_mem_hexAlphabet (n % 16) (by omega)

theorem mem_hexAlphabet_of_mem_hexDigits {c : Char} {width n : Nat} (h : c ∈ hexDigits width n) :
    c ∈ hexAlphabet := by
  unfold hexDigits at h
  rcases List.mem_append.mp h with hzero | hdigit
  · rw [List.eq_of_mem_replicate hzero]
    decide
  · exact mem_hexAlphabet_of_mem_toDigits hdigit

theorem hexDigits_one {n : Nat} (h : n < 16) : hexDigits 1 n = [Nat.digitChar n] := by
  rw [hexDigits, Nat.toDigits_of_lt_base h]
  rfl

theorem hexDigits_add_two (width n : Nat) :
    hexDigits (width + 2) n = hexDigits (width + 1) (n / 16) ++ [Nat.digitChar (n % 16)] := by
  unfold hexDigits
  by_cases hn : n < 16
  · have hquotient : n / 16 = 0 := by omega
    have hremainder : n % 16 = n := by omega
    rw [Nat.toDigits_of_lt_base hn, hquotient, hremainder, Nat.toDigits_of_lt_base (by decide)]
    simp [List.replicate_succ', Nat.digitChar]
  · rw [Nat.toDigits_of_base_le (by decide) (by omega), ← List.append_assoc, List.length_append,
      List.length_singleton]
    congr 2
    congr 1
    omega

end EditorTheme.Text
