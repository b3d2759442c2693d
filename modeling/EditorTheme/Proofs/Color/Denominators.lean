import EditorTheme.Proofs.Color.Hexadecimal

/-!
The denominators in the conversion from channels. Where the extreme channels of a color differ, the conversion divides
by their difference, and by their sum or by what the sum leaves of 2. Over scalars that keep these apart from zero for
bytes, no color of three bytes is converted with a division by zero.
-/

set_option autoImplicit false
set_option relaxedAutoImplicit false

namespace EditorTheme

variable {α : Type} [Scalar α]

def unitChannel (n : Int) : α := Scalar.ofInt n / 255

/-- The denominators of the conversion are not zero. -/
structure Divisible (low high : α) : Prop where
  sum : (high + low == 0) = false
  range : (high - low == 0) = false
  rest : (2 - (high + low) == 0) = false

/-- Scalars that keep the denominators of different bytes apart from zero. -/
class DividesChannels (α : Type) [Scalar α] : Prop where
  divisible : ∀ {low high : Int}, 0 ≤ low ∧ low ≤ 255 → 0 ≤ high ∧ high ≤ 255 →
    ((unitChannel low : α) == unitChannel high) = false → Divisible (unitChannel low : α) (unitChannel high)

theorem Scalar.larger_eq_or (x y : α) : larger x y = x ∨ larger x y = y := by
  unfold larger
  split
  · exact .inr rfl
  · exact .inl rfl

theorem Scalar.smaller_eq_or (x y : α) : smaller x y = x ∨ smaller x y = y := by
  unfold smaller
  split
  · exact .inr rfl
  · exact .inl rfl

section Extremes

/-- A scalar that is the channel of a byte. -/
def IsByteChannel (x : α) : Prop := ∃ n : Int, (0 ≤ n ∧ n ≤ 255) ∧ x = unitChannel n

theorem IsByteChannel.larger {x y : α} (hx : IsByteChannel x) (hy : IsByteChannel y) :
    IsByteChannel (Scalar.larger x y) := by
  rcases Scalar.larger_eq_or x y with h | h <;> rw [h] <;> assumption

theorem IsByteChannel.smaller {x y : α} (hx : IsByteChannel x) (hy : IsByteChannel y) :
    IsByteChannel (Scalar.smaller x y) := by
  rcases Scalar.smaller_eq_or x y with h | h <;> rw [h] <;> assumption

theorem IsByteChannel.divisible [DividesChannels α] {low high : α} (hlow : IsByteChannel low)
    (hhigh : IsByteChannel high) (h : (low == high) = false) : Divisible low high := by
  obtain ⟨m, hm, rfl⟩ := hlow
  obtain ⟨n, hn, rfl⟩ := hhigh
  exact DividesChannels.divisible hm hn h

end Extremes

end EditorTheme
