import EditorTheme.Proofs.Color.Adjusting
import EditorTheme.Proofs.Expression.Reading
import EditorTheme.Proofs.Palette.Texts
import EditorTheme.Proofs.Theme.Range
import Mathlib.Algebra.Order.BigOperators.Group.List

/-!
Colors made darker or lighter step by step, over the rationals. The steps of a stack all go the same way, so the shifts
add up even where they run against the end of the range: the last color is that of a single step by the whole amount.
-/

set_option autoImplicit false
set_option relaxedAutoImplicit false

namespace EditorTheme

open EditorTheme.Text
open EditorTheme.Expression (Arguments Calls Name Number)

/-- The two ways in which a step of a stack goes. -/
inductive Shading where
  | darker
  | lighter

namespace Shading

def function : Shading → Expression.Function
  | .darker => .darken
  | .lighter => .lighten

def shift : Shading → Rat → Rat
  | .darker, amount => -amount
  | .lighter, amount => amount

theorem shift_zero (way : Shading) : way.shift 0 = 0 := by
  cases way <;> simp [shift]

theorem shift_add (way : Shading) (first second : Rat) :
    way.shift (first + second) = way.shift first + way.shift second := by
  cases way
  · exact neg_add first second
  · rfl

theorem additive_shift (way : Shading) (x : Rat) {first second : Rat} (hfirst : 0 ≤ first) (hsecond : 0 ≤ second) :
    Additive x (way.shift first) (way.shift second) := by
  refine .inl ?_
  cases way <;> rintro (⟨h, h'⟩ | ⟨h, h'⟩) <;> simp only [shift] at h h' <;> linarith

end Shading

namespace Palette

/-- The text of a name makes another color darker or lighter by an amount. -/
inductive Shaded (texts : Texts) (way : Shading) (name : String) : String → Rat → Prop
  | mk {text : String} {call : Expression.Call} {base numeral : List Char} {amount : Rat} :
      texts.find? name = some text → Calls (trim text.toList) call → Arguments call way.function [base, numeral] →
      Name base → Number numeral amount → Shaded texts way name (String.ofList base) amount

/-- Entries that lead from a base to a name, each making the color before it darker, or each lighter, by the amounts
that are listed with the last one first. -/
inductive Stack (texts : Texts) (way : Shading) (base : String) : List Rat → String → Prop
  | base : Stack texts way base [] base
  | step {amounts : List Rat} {last name : String} {amount : Rat} :
      Stack texts way base amounts last → Shaded texts way name last amount →
      Stack texts way base (amount :: amounts) name

variable {texts : Texts} {way : Shading} {hues : HueTable Rat} {table : Table (Color Rat)}

theorem Shaded.declares {name base : String} {amount : Rat} (h : Shaded texts way name base amount) :
    texts.Declares name (.adjust base 0 (way.shift amount)) := by
  cases h with
  | mk hfound hcalls harguments hname hnumber =>
    refine ⟨_, hfound, Expression.read_eq_ok_iff.mpr (.call hcalls harguments ?_)⟩
    cases way
    · exact .darken hname hnumber
    · exact .lighten hname hnumber

theorem Shaded.color (hresolve : resolve texts.entries hues = .ok table) {name base : String} {amount : Rat}
    (h : Shaded texts way name base amount) {c : Color Rat} (hc : table.find? base = some c) :
    table.find? name = some (c.adjust 0 (way.shift amount)) := by
  obtain ⟨p, hparse, hevaluate⟩ := resolve_eq_ok_iff.mp hresolve
  have hentry := ((reads_of_parse hparse).find?_eq_some_iff name _).mpr h.declares
  obtain ⟨color, heval, hfound⟩ := (solves_of_evaluate hevaluate).1.equation name _ hentry
  have hbase : Expression.lookupColor table base = .ok c := (Expression.lookupColor_eq_ok_iff table base c).mpr hc
  rw [Expression.eval, bind_of_ok hbase] at heval
  obtain rfl := pure_eq_ok.mp heval
  exact hfound

/-- By induction along the stack: what was reached so far is one step of the summed amount, and the next step adds to
it. -/
theorem Stack.color (hresolve : resolve texts.entries hues = .ok table) {base last : String} {amounts : List Rat}
    (h : Stack texts way base amounts last) (hamounts : ∀ amount ∈ amounts, 0 ≤ amount) {c : Color Rat}
    (hc : table.find? base = some c) : table.find? last = some (c.adjust 0 (way.shift amounts.sum)) := by
  have hrange : c.InRange := colorsInRange_of_resolve hresolve base c hc
  induction h with
  | base => rw [List.sum_nil, way.shift_zero, Color.adjust_zero hrange, hc]
  | @step amounts last name amount _ hshaded ih =>
    obtain ⟨hamount, hrest⟩ := List.forall_mem_cons.mp hamounts
    have hsum : 0 ≤ amounts.sum := List.sum_nonneg hrest
    have hstill : Additive c.saturation 0 0 := .inl (by simp [Opposed])
    have hlightness := way.additive_shift c.lightness hsum hamount
    rw [hshaded.color hresolve (ih hrest), Color.adjust_adjust hrange hstill hlightness, ← way.shift_add, add_zero,
      add_comm amounts.sum amount, List.sum_cons]

/-- Shifting twice is shifting once by the sums, where neither component turns back from beyond its range. A shift keeps
the hue, and moves each component by its own amount alone, the further the larger it is. So a stack of steps that all
make a color darker, or all lighter, ends in the color of a single step by the whole amount. -/
theorem adjust_adds_up :
    (∀ c : Color Rat, c.InRange → ∀ s₁ l₁ s₂ l₂, Additive c.saturation s₁ s₂ → Additive c.lightness l₁ l₂ →
      (c.adjust s₁ l₁).adjust s₂ l₂ = c.adjust (s₁ + s₂) (l₁ + l₂)) ∧
    (∀ (c : Color Rat) (s l : Rat), (c.adjust s l).hue = c.hue) ∧
    (∀ (c : Color Rat) (s s' l l' : Rat),
      (s ≤ s' → (c.adjust s l).saturation ≤ (c.adjust s' l).saturation) ∧
      (l ≤ l' → (c.adjust s l).lightness ≤ (c.adjust s l').lightness) ∧
      (c.adjust s l').saturation = (c.adjust s l).saturation ∧ (c.adjust s' l).lightness = (c.adjust s l).lightness) ∧
    ∀ (texts : Texts) (hues : HueTable Rat) (table : Table (Color Rat)), resolve texts.entries hues = .ok table →
      ∀ (way : Shading) (base last : String) (amounts : List Rat), Stack texts way base amounts last →
        (∀ amount ∈ amounts, 0 ≤ amount) → base ∈ texts.names →
        (∃ c, table.find? base = some c ∧ table.find? last = some (c.adjust 0 (way.shift amounts.sum))) ∧
        ∀ single, Shaded texts way single base amounts.sum → table.find? last = table.find? single := by
  refine ⟨fun c hc s₁ l₁ s₂ l₂ => Color.adjust_adjust hc, fun c s l => rfl, ?_, ?_⟩
  · intro c s s' l l'
    refine ⟨fun h => ?_, fun h => ?_, rfl, rfl⟩
    · exact Rational.clamp_le_clamp (add_le_add le_rfl h)
    · exact Rational.clamp_le_clamp (add_le_add le_rfl h)
  · intro texts hues table hresolve way base last amounts hstack hamounts hbase
    obtain ⟨c, hc⟩ := (table.mem_names_iff base).mp (names_of_resolve hresolve ▸ hbase)
    have hlast := hstack.color hresolve hamounts hc
    refine ⟨⟨c, hc, hlast⟩, fun single hsingle => ?_⟩
    rw [hlast, hsingle.color hresolve hc]

section Witness

/-- The first two steps lead beyond black, so the last one has nothing left to darken. -/
private def descending : Texts :=
  ⟨[("deeper", "darken(deep, 0.3)"), ("base", "hsl(210, 0.5, 0.5)"), ("deep", " Darken (base, 0.4)"),
    ("deepest", "darken(deeper, 0.05)"), ("single", "darken(base, 0.75)")], by decide⟩

private theorem shaded_descending {name text : String} {call : Expression.Call} {base numeral : List Char}
    {n : Decimal.Numeral} {amount : Rat}
    (h : descending.find? name = some text ∧ Expression.Call.read? (trim text.toList) = some call ∧
      lower call.word = Expression.Function.darken.name.toList ∧ call.arguments = [base, numeral] ∧ numeral ≠ [] ∧
      Expression.isName base = true ∧ Decimal.Numeral.read? numeral = some n ∧ n.value = amount) :
    Shaded descending .darker name (String.ofList base) amount := by
  obtain ⟨hfound, hcall, hword, harguments, hnonempty, hname, hnumeral, hamount⟩ := h
  have hbase : Name base := Expression.isName_iff.mp hname
  refine .mk hfound (Expression.Call.read?_eq_some_iff.mp hcall) ?_ hbase
    ⟨n, Decimal.Numeral.read?_eq_some_iff.mp hnumeral, hamount, rfl⟩
  refine ⟨hword, Expression.call_arguments_eq_iff.mp harguments, rfl, ?_⟩
  have hbaseNonempty : base ≠ [] := by
    rintro rfl
    cases hname
  simp [hbaseNonempty, hnonempty]

private theorem stack_descending : Stack descending .darker "base" [1 / 20, 3 / 10, 2 / 5] "deepest" := by
  have hfirst : Shaded descending .darker "deep" "base" (2 / 5) :=
    @shaded_descending "deep" " Darken (base, 0.4)" ⟨"Darken".toList, "base, 0.4".toList⟩ "base".toList "0.4".toList
      ⟨false, 4, -1⟩ (2 / 5) (by decide +kernel)
  have hsecond : Shaded descending .darker "deeper" "deep" (3 / 10) :=
    @shaded_descending "deeper" "darken(deep, 0.3)" ⟨"darken".toList, "deep, 0.3".toList⟩ "deep".toList "0.3".toList
      ⟨false, 3, -1⟩ (3 / 10) (by decide +kernel)
  have hthird : Shaded descending .darker "deepest" "deeper" (1 / 20) :=
    @shaded_descending "deepest" "darken(deeper, 0.05)" ⟨"darken".toList, "deeper, 0.05".toList⟩ "deeper".toList
      "0.05".toList ⟨false, 5, -2⟩ (1 / 20) (by decide +kernel)
  exact ((Stack.base.step hfirst).step hsecond).step hthird

private theorem shaded_single : Shaded descending .darker "single" "base" [1 / 20, 3 / 10, 2 / 5].sum :=
  @shaded_descending "single" "darken(base, 0.75)" ⟨"darken".toList, "base, 0.75".toList⟩ "base".toList "0.75".toList
    ⟨false, 75, -2⟩ _ (by decide +kernel)

theorem adjust_adds_up_descending :
    (Color.adjust ⟨200, 9 / 10, 1 / 2⟩ (1 / 2) (1 / 10)).adjust (1 / 4) (-1 / 5) =
      Color.adjust (⟨200, 9 / 10, 1 / 2⟩ : Color Rat) (1 / 2 + 1 / 4) (1 / 10 + -1 / 5) ∧
    Stack descending .darker "base" [1 / 20, 3 / 10, 2 / 5] "deepest" ∧
    ∃ (table : Table (Color Rat)) (c : Color Rat), resolve descending.entries Table.empty = .ok table ∧
      table.find? "base" = some c ∧
      table.find? "deepest" = some (c.adjust 0 (-[(1 / 20 : Rat), 3 / 10, 2 / 5].sum)) ∧
      table.find? "deepest" = table.find? "single" := by
  obtain ⟨hsum, -, -, hstack⟩ := adjust_adds_up
  have hrange : (⟨200, 9 / 10, 1 / 2⟩ : Color Rat).InRange := ⟨by decide, by decide +kernel, by decide +kernel⟩
  have hsaturation : Additive (9 / 10) (1 / 2) (1 / 4) := by
    refine .inl ?_
    norm_num [Opposed]
  have hlightness : Additive (1 / 2) (1 / 10) (-1 / 5) := .inr (by norm_num)
  have hok : (resolve descending.entries (Table.empty : HueTable Rat)).isOk = true := by decide +kernel
  obtain ⟨table, htable⟩ := exists_ok_of_isOk hok
  obtain ⟨⟨c, hc, hlast⟩, hsingle⟩ := hstack descending Table.empty table htable .darker "base" "deepest"
    [1 / 20, 3 / 10, 2 / 5] stack_descending (by norm_num) (by decide)
  exact ⟨hsum _ hrange _ _ _ _ hsaturation hlightness, stack_descending, table, c, htable, hc, hlast,
    hsingle "single" shaded_single⟩

end Witness

end Palette

end EditorTheme
