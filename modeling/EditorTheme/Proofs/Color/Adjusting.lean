import EditorTheme.Proofs.Color.Range

/-!
Shifting colors over the rationals. Two shifts of a component are one by their sum unless the first one leaves the range
and the second one turns back; where they turn back, the sum can still lead to the same end of the range.
-/

set_option autoImplicit false
set_option relaxedAutoImplicit false

namespace EditorTheme

def Opposed (first second : Rat) : Prop := first < 0 ∧ 0 < second ∨ 0 < first ∧ second < 0

/-- Two shifts of a component do not turn back, or the first one stays in the range. -/
def Additive (x first second : Rat) : Prop := ¬ Opposed first second ∨ 0 ≤ x + first ∧ x + first ≤ 1

namespace Rational

variable {x y first second : Rat}

theorem clamp_of_nonpos (h : x ≤ 0) : clamp x = 0 := by
  rw [clamp_eq]
  exact max_eq_left ((min_le_right 1 x).trans h)

theorem clamp_of_one_le (h : 1 ≤ x) : clamp x = 1 := by
  rw [clamp_eq, min_eq_left h]
  exact max_eq_right zero_le_one

theorem clamp_le_clamp (h : x ≤ y) : clamp x ≤ clamp y := by
  rw [clamp_eq, clamp_eq]
  exact max_le_max le_rfl (min_le_min le_rfl h)

theorem clamp_lt_clamp (h : x < y) (hx : x < 1) (hy : 0 < y) : clamp x < clamp y := by
  rw [clamp_eq, clamp_eq, min_eq_right hx.le]
  have hhigher : 0 < min 1 y := lt_min one_pos hy
  rw [max_eq_right hhigher.le]
  exact max_lt hhigher (lt_min hx h)

theorem additive_iff_of_below (hlow : 0 ≤ x) (hbelow : x + first < 0) : Additive x first second ↔ second ≤ 0 := by
  constructor
  · rintro (hsame | ⟨hnonneg, -⟩)
    · have hdown : first < 0 := by linarith
      exact not_lt.mp fun hup => hsame (.inl ⟨hdown, hup⟩)
    · linarith
  · intro hdown
    refine .inl ?_
    rintro (⟨-, hup⟩ | ⟨hup, -⟩) <;> linarith

theorem additive_iff_of_above (hhigh : x ≤ 1) (habove : 1 < x + first) : Additive x first second ↔ 0 ≤ second := by
  constructor
  · rintro (hsame | ⟨-, hbounded⟩)
    · have hup : 0 < first := by linarith
      exact not_lt.mp fun hdown => hsame (.inr ⟨hup, hdown⟩)
    · linarith
  · intro hup
    refine .inl ?_
    rintro (⟨hdown, -⟩ | ⟨-, hdown⟩) <;> linarith

/-- Two shifts of a component are one by their sum exactly if they do not turn back from beyond the range, or else the
sum leads beyond the other end, where the second shift alone leads as well. -/
theorem clamp_clamp_add_iff (hlow : 0 ≤ x) (hhigh : x ≤ 1) :
    clamp (clamp (x + first) + second) = clamp (x + (first + second)) ↔
      Additive x first second ∨ x + first < 0 ∧ 1 ≤ x + (first + second) ∨
        1 < x + first ∧ x + (first + second) ≤ 0 := by
  rcases lt_or_ge (x + first) 0 with hbelow | hnonneg
  · rw [clamp_of_nonpos hbelow.le, zero_add, additive_iff_of_below hlow hbelow]
    constructor
    · intro heq
      by_contra hnot
      simp only [not_or, not_and, not_le] at hnot
      obtain ⟨hup, hshort, -⟩ := hnot
      exact (clamp_lt_clamp (by linarith) (hshort hbelow) hup).ne heq.symm
    · rintro (hdown | ⟨-, hfar⟩ | ⟨habove, -⟩)
      · rw [clamp_of_nonpos hdown, clamp_of_nonpos (by linarith)]
      · rw [clamp_of_one_le hfar, clamp_of_one_le (by linarith)]
      · linarith
  rcases lt_or_ge 1 (x + first) with habove | hbounded
  · rw [clamp_of_one_le habove.le, additive_iff_of_above hhigh habove]
    constructor
    · intro heq
      by_contra hnot
      simp only [not_or, not_and, not_le] at hnot
      obtain ⟨hdown, -, hshort⟩ := hnot
      exact (clamp_lt_clamp (by linarith) (by linarith) (hshort habove)).ne heq
    · rintro (hup | ⟨hbelow, -⟩ | ⟨-, hfar⟩)
      · rw [clamp_of_one_le (by linarith), clamp_of_one_le (by linarith)]
      · linarith
      · rw [clamp_of_nonpos hfar, clamp_of_nonpos (by linarith)]
  · refine iff_of_true ?_ (.inl (.inr ⟨hnonneg, hbounded⟩))
    rw [clamp_of_mem hnonneg hbounded, add_assoc]

end Rational

namespace Color

variable {c : Color Rat}

theorem adjust_adjust (h : c.InRange) {s₁ l₁ s₂ l₂ : Rat} (hs : Additive c.saturation s₁ s₂)
    (hl : Additive c.lightness l₁ l₂) : (c.adjust s₁ l₁).adjust s₂ l₂ = c.adjust (s₁ + s₂) (l₁ + l₂) := by
  have hsaturation := (Rational.clamp_clamp_add_iff h.saturation.1 h.saturation.2).mpr (.inl hs)
  have hlightness := (Rational.clamp_clamp_add_iff h.lightness.1 h.lightness.2).mpr (.inl hl)
  rw [adjust, adjust, adjust, hsaturation, hlightness]

theorem adjust_zero (h : c.InRange) : c.adjust 0 0 = c := by
  rw [adjust, add_zero, add_zero, Rational.clamp_of_mem h.saturation.1 h.saturation.2,
    Rational.clamp_of_mem h.lightness.1 h.lightness.2]

end Color

end EditorTheme
