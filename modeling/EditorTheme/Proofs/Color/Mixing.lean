import EditorTheme.Proofs.Color.Range
import EditorTheme.Proofs.Sequencing
import Mathlib.Order.Interval.Set.UnorderedInterval

/-!
Mixing colors over the rationals. For weights from 0 to 1 the components are divided in the ratio of the weights, and
neither the wrap of the hue nor the clamps have anything to do. Beyond these weights they do their part, but the mix
depends only on how far the weight leads along the line through both colors.
-/

set_option autoImplicit false
set_option relaxedAutoImplicit false

namespace EditorTheme

/-- The point on the line through two numbers that is the first one for weight 1 and the second one for weight 0. -/
def between (weight x y : Rat) : Rat := weight * x + (1 - weight) * y

section Between

variable {weight x y : Rat}

theorem between_one (x y : Rat) : between 1 x y = x := by
  unfold between
  ring

theorem between_zero (x y : Rat) : between 0 x y = y := by
  unfold between
  ring

theorem between_swap (weight x y : Rat) : between (1 - weight) y x = between weight x y := by
  unfold between
  ring

/-- Of two points of a line a third one is taken, which lies on the line where the weights lead. -/
theorem between_between (weight u v x y : Rat) :
    between weight (between u x y) (between v x y) = between (between weight u v) x y := by
  unfold between
  ring

theorem le_between {low : Rat} (hlow : 0 ≤ weight) (hhigh : weight ≤ 1) (hx : low ≤ x) (hy : low ≤ y) :
    low ≤ between weight x y :=
  calc low = weight * low + (1 - weight) * low := by ring
    _ ≤ weight * x + (1 - weight) * y :=
      add_le_add (mul_le_mul_of_nonneg_left hx hlow) (mul_le_mul_of_nonneg_left hy (sub_nonneg.mpr hhigh))

theorem between_le {high : Rat} (hlow : 0 ≤ weight) (hhigh : weight ≤ 1) (hx : x ≤ high) (hy : y ≤ high) :
    between weight x y ≤ high :=
  calc weight * x + (1 - weight) * y
      ≤ weight * high + (1 - weight) * high :=
        add_le_add (mul_le_mul_of_nonneg_left hx hlow) (mul_le_mul_of_nonneg_left hy (sub_nonneg.mpr hhigh))
    _ = high := by ring

theorem between_mem_uIcc (hlow : 0 ≤ weight) (hhigh : weight ≤ 1) : between weight x y ∈ Set.uIcc x y :=
  ⟨le_between hlow hhigh inf_le_left inf_le_right, between_le hlow hhigh le_sup_left le_sup_right⟩

end Between

namespace Color

variable {a b c : Color Rat} {weight : Rat}

/-- The color that divides two colors, component by component. -/
def dividing (weight : Rat) (a b : Color Rat) : Color Rat :=
  ⟨between weight a.hue b.hue, between weight a.saturation b.saturation, between weight a.lightness b.lightness⟩

/-- The color whose hue is wrapped and whose other components are clamped. -/
def confined (c : Color Rat) : Color Rat := ⟨wrapHue c.hue, clamp c.saturation, clamp c.lightness⟩

theorem mix_eq (a b : Color Rat) (weight : Rat) : mix a b weight = .ok (dividing weight a b).confined := rfl

theorem confined_of_inRange (h : c.InRange) : c.confined = c := by
  obtain ⟨hhue, hsaturation, hlightness⟩ := h
  have hwrap : wrapHue c.hue = c.hue := Rational.wrapHue_of_mem hhue.1 hhue.2
  rw [confined, hwrap, Rational.clamp_of_mem hsaturation.1 hsaturation.2,
    Rational.clamp_of_mem hlightness.1 hlightness.2]

theorem inRange_dividing (ha : a.InRange) (hb : b.InRange) (hlow : 0 ≤ weight) (hhigh : weight ≤ 1) :
    (dividing weight a b).InRange where
  hue := ⟨le_between hlow hhigh ha.hue.1 hb.hue.1, lt_of_le_of_lt
    (between_le hlow hhigh (le_max_left a.hue b.hue) (le_max_right a.hue b.hue)) (max_lt ha.hue.2 hb.hue.2)⟩
  saturation := ⟨le_between hlow hhigh ha.saturation.1 hb.saturation.1,
    between_le hlow hhigh ha.saturation.2 hb.saturation.2⟩
  lightness := ⟨le_between hlow hhigh ha.lightness.1 hb.lightness.1,
    between_le hlow hhigh ha.lightness.2 hb.lightness.2⟩

/-- Within the weights from 0 to 1 nothing is wrapped and nothing is clamped. -/
theorem mix_of_weight_mem (ha : a.InRange) (hb : b.InRange) (hlow : 0 ≤ weight) (hhigh : weight ≤ 1) :
    mix a b weight = .ok (dividing weight a b) := by
  rw [mix_eq, confined_of_inRange (inRange_dividing ha hb hlow hhigh)]

theorem dividing_one (a b : Color Rat) : dividing 1 a b = a := by
  simp only [dividing, between_one]

theorem dividing_zero (a b : Color Rat) : dividing 0 a b = b := by
  simp only [dividing, between_zero]

theorem dividing_swap (weight : Rat) (a b : Color Rat) : dividing (1 - weight) b a = dividing weight a b := by
  simp only [dividing, between_swap]

theorem dividing_dividing (weight u v : Rat) (a b : Color Rat) :
    dividing weight (dividing u a b) (dividing v a b) = dividing (between weight u v) a b := by
  simp only [dividing, between_between]

/-- The components of a color lie between those of two others. -/
structure Between (a b c : Color Rat) : Prop where
  hue : c.hue ∈ Set.uIcc a.hue b.hue
  saturation : c.saturation ∈ Set.uIcc a.saturation b.saturation
  lightness : c.lightness ∈ Set.uIcc a.lightness b.lightness

theorem between_dividing (hlow : 0 ≤ weight) (hhigh : weight ≤ 1) : Between a b (dividing weight a b) :=
  ⟨between_mem_uIcc hlow hhigh, between_mem_uIcc hlow hhigh, between_mem_uIcc hlow hhigh⟩

/-- Two colors in range are mixed by dividing their components, which stay between theirs; the ends of the weights give
the colors themselves. For every weight, also where the mix leaves the range and is brought back, exchanging the colors
exchanges the weights, and mixing two mixes is one mix by the weight that they lead to. -/
theorem mix_divides (ha : a.InRange) (hb : b.InRange) :
    (∀ weight, 0 ≤ weight → weight ≤ 1 → ∃ c, mix a b weight = .ok c ∧
      c.hue = weight * a.hue + (1 - weight) * b.hue ∧
      c.saturation = weight * a.saturation + (1 - weight) * b.saturation ∧
      c.lightness = weight * a.lightness + (1 - weight) * b.lightness ∧ Between a b c) ∧
    mix a b 1 = .ok a ∧ mix a b 0 = .ok b ∧
    (∀ weight, ∃ c, mix a b weight = .ok c ∧ mix b a (1 - weight) = .ok c) ∧
    ∀ u v, 0 ≤ u → u ≤ 1 → 0 ≤ v → v ≤ 1 → ∃ c d, mix a b u = .ok c ∧ mix a b v = .ok d ∧
      ∀ weight, ∃ e, mix c d weight = .ok e ∧ mix a b (weight * u + (1 - weight) * v) = .ok e := by
  refine ⟨?_, ?_, ?_, ?_, ?_⟩
  · intro weight hlow hhigh
    exact ⟨_, mix_of_weight_mem ha hb hlow hhigh, rfl, rfl, rfl, between_dividing hlow hhigh⟩
  · rw [mix_of_weight_mem ha hb zero_le_one le_rfl, dividing_one]
  · rw [mix_of_weight_mem ha hb le_rfl zero_le_one, dividing_zero]
  · intro weight
    refine ⟨_, mix_eq a b weight, ?_⟩
    rw [mix_eq, dividing_swap]
  · intro u v hu hu' hv hv'
    refine ⟨_, _, mix_of_weight_mem ha hb hu hu', mix_of_weight_mem ha hb hv hv', fun weight => ⟨_, mix_eq _ _ _, ?_⟩⟩
    rw [mix_eq, dividing_dividing]
    rfl

section Witness

private def dusk : Color Rat := ⟨350, 1, 1 / 4⟩

private def dawn : Color Rat := ⟨10, 0, 1⟩

theorem mix_divides_dusk_dawn : dusk.InRange ∧ dawn.InRange ∧ mix dusk dawn 1 = .ok dusk ∧
    mix dusk dawn (3 / 2) = .ok ⟨160, 1, 0⟩ ∧ mix dusk dawn (3 / 2) = mix dawn dusk (1 - 3 / 2) ∧
    (∃ c, mix dusk dawn (1 / 4) = .ok c ∧ c.hue = 1 / 4 * 350 + (1 - 1 / 4) * 10) ∧
    ∃ c d, mix dusk dawn (1 / 4) = .ok c ∧ mix dusk dawn (3 / 4) = .ok d ∧
      mix c d (-3 / 2) = mix dusk dawn (-3 / 2 * (1 / 4) + (1 - -3 / 2) * (3 / 4)) := by
  have hdusk : dusk.InRange := ⟨by decide, by decide, by decide +kernel⟩
  have hdawn : dawn.InRange := ⟨by decide, by decide, by decide⟩
  obtain ⟨hdivide, hone, -, hswap, hmix⟩ := mix_divides hdusk hdawn
  obtain ⟨c, hc, hhue, -⟩ := hdivide (1 / 4) (by norm_num) (by norm_num)
  have hconfined : (dividing (3 / 2) dusk dawn).confined = ⟨160, 1, 0⟩ := by
    rw [confined, mk.injEq]
    decide +kernel
  obtain ⟨beyond, hbeyond, hexchanged⟩ := hswap (3 / 2)
  obtain ⟨late, early, hlate, hearly, hagain⟩ :=
    hmix (1 / 4) (3 / 4) (by norm_num) (by norm_num) (by norm_num) (by norm_num)
  obtain ⟨mixed, hmixed, hdirect⟩ := hagain (-3 / 2)
  exact ⟨hdusk, hdawn, hone, congrArg Except.ok hconfined, hbeyond.trans hexchanged.symm, ⟨c, hc, hhue⟩,
    late, early, hlate, hearly, hmixed.trans hdirect.symm⟩

end Witness

end Color

end EditorTheme
