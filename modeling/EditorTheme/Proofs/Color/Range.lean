import EditorTheme.Proofs.Color.Rational
import EditorTheme.Proofs.Expression.Evaluation

/-!
Colors in range. Comparison need order no more than the numbers, those values that compare with themselves: whatever an
operation leaves behind, clamping and wrapping bring it back into range.
-/

set_option autoImplicit false
set_option relaxedAutoImplicit false

namespace EditorTheme

/-- Scalars whose comparison is a total order on the numbers, that is, on the values that compare with themselves, and
whose remainders of finite numbers are numbers from 0 up. A remainder may reach the divisor. -/
class OrderedScalar (α : Type) [Scalar α] : Prop where
  le_of_lt : ∀ {x y : α}, x < y → x ≤ y
  le_self_left : ∀ {x y : α}, x ≤ y → x ≤ x
  le_self_right : ∀ {x y : α}, x ≤ y → y ≤ y
  lt_of_not_le : ∀ {x y : α}, x ≤ x → y ≤ y → ¬ y ≤ x → x < y
  unit_pos : (0 : α) < 1
  turn_pos : (0 : α) < 360
  remainder_nonneg : ∀ {x : α}, Scalar.isFinite x = true → 0 ≤ Scalar.remainder x 360

variable {α : Type} [Scalar α]

section Components

variable [OrderedScalar α]

open OrderedScalar

theorem clamp_mem (x : α) : 0 ≤ clamp x ∧ clamp x ≤ 1 := by
  have hunit : (0 : α) ≤ 1 := le_of_lt unit_pos
  have hzero : (0 : α) ≤ 0 := le_self_left hunit
  have hone : (1 : α) ≤ 1 := le_self_right hunit
  unfold clamp Scalar.smaller
  split
  · next hbelow =>
    unfold Scalar.larger
    split
    · next habove => exact ⟨le_of_lt habove, le_of_lt hbelow⟩
    · exact ⟨hzero, hunit⟩
  · unfold Scalar.larger
    rw [if_pos unit_pos]
    exact ⟨hunit, hone⟩

theorem wrapHue_mem {hue : α} (h : Scalar.isFinite hue = true) : 0 ≤ wrapHue hue ∧ wrapHue hue < 360 := by
  have hnonneg : 0 ≤ Scalar.remainder hue 360 := remainder_nonneg h
  have hturn : (0 : α) ≤ 360 := le_of_lt turn_pos
  unfold wrapHue
  simp only
  split
  · exact ⟨le_self_left hturn, turn_pos⟩
  · next hbelow => exact ⟨hnonneg, lt_of_not_le (le_self_right hnonneg) (le_self_right hturn) hbelow⟩

end Components

namespace Color

/-- Hue from 0 up to 360, 360 excluded; saturation and lightness from 0 to 1. -/
structure InRange (c : Color α) : Prop where
  hue : 0 ≤ c.hue ∧ c.hue < 360
  saturation : 0 ≤ c.saturation ∧ c.saturation ≤ 1
  lightness : 0 ≤ c.lightness ∧ c.lightness ≤ 1

variable [OrderedScalar α]

theorem inRange_of_make {hue saturation lightness : α} {c : Color α} (h : make hue saturation lightness = .ok c) :
    c.InRange := by
  unfold make at h
  split at h
  · next hfinite =>
    obtain rfl := Except.ok.inj h
    have hhue : Scalar.isFinite hue = true := by
      simp only [Bool.and_eq_true] at hfinite
      exact hfinite.1.1
    exact ⟨wrapHue_mem hhue, clamp_mem saturation, clamp_mem lightness⟩
  · cases h

theorem InRange.adjust {c : Color α} (h : c.InRange) (saturation lightness : α) :
    (c.adjust saturation lightness).InRange :=
  ⟨h.hue, clamp_mem _, clamp_mem _⟩

theorem inRange_of_mix {a b c : Color α} {weight : α} (h : mix a b weight = .ok c) : c.InRange :=
  inRange_of_make h

end Color

def ColorsInRange (colors : Table (Color α)) : Prop := ∀ name c, colors.find? name = some c → c.InRange

theorem ColorsInRange.empty : ColorsInRange (Table.empty : Table (Color α)) := by
  intro name c h
  cases h

theorem ColorsInRange.insert {colors : Table (Color α)} (h : ColorsInRange colors) (name : String) {c : Color α}
    (hc : c.InRange) : ColorsInRange (colors.insert name c) := by
  intro other d hfound
  by_cases hsame : other = name
  · rw [hsame, Table.find?_insert_self] at hfound
    obtain rfl := Option.some.inj hfound
    exact hc
  · rw [colors.find?_insert_of_ne hsame] at hfound
    exact h other d hfound

theorem Expression.inRange_of_lookupColor {colors : Table (Color α)} (hcolors : ColorsInRange colors) {name : String}
    {c : Color α} (h : lookupColor colors name = .ok c) : c.InRange :=
  hcolors name c ((lookupColor_eq_ok_iff colors name c).mp h)

theorem Expression.inRange_of_eval [OrderedScalar α] {hues : HueTable α} {colors : Table (Color α)}
    (hcolors : ColorsInRange colors) {e : Expression α} {c : Color α} (h : e.eval hues colors = .ok c) : c.InRange := by
  cases e with
  | literal rgb => exact Color.inRange_of_make h
  | hsl hue saturation lightness =>
    obtain ⟨degrees, -, hmake⟩ := bind_eq_ok.mp h
    exact Color.inRange_of_make hmake
  | adjust base saturation lightness =>
    obtain ⟨color, hcolor, hadjust⟩ := bind_eq_ok.mp h
    obtain rfl := pure_eq_ok.mp hadjust
    exact (inRange_of_lookupColor hcolors hcolor).adjust saturation lightness
  | mix first second weight =>
    obtain ⟨a, -, hsecond⟩ := bind_eq_ok.mp h
    obtain ⟨b, -, hmix⟩ := bind_eq_ok.mp hsecond
    exact Color.inRange_of_mix hmix
  | «alias» name => exact inRange_of_lookupColor hcolors h

theorem ExactScalar.orderedScalar [ExactScalar α] : OrderedScalar α := by
  obtain ⟨_, _, _, _, rfl⟩ := exists_field (α := α)
  refine @OrderedScalar.mk α (OrderedField.scalar α) (fun h => le_of_lt h) (fun _ => le_rfl) (fun _ => le_rfl)
    (fun _ _ h => lt_of_not_ge h) one_pos Nat.ofNat_pos ?_
  intro x _
  have hfloor : (⌊x / 360⌋ : α) ≤ x / 360 := Int.floor_le (x / 360)
  change 0 ≤ x - 360 * (⌊x / 360⌋ : α)
  linarith

instance : OrderedScalar Rat := ExactScalar.orderedScalar

end EditorTheme
