import EditorTheme.Proofs.Double.Wrapping
import EditorTheme.Proofs.HueTable.Pairs
import EditorTheme.Proofs.Palette.Rewriting

/-!
Named hues stand for their numbers. A hue is wrapped when the table is made and once more when a color is made of it;
the number itself is wrapped only then. Since wrapping again changes nothing, an expression has the same color either
way, and so has every other one that is made of it.
-/

set_option autoImplicit false
set_option relaxedAutoImplicit false

namespace EditorTheme

open HueTable (Gives)

variable {α : Type}

def HueTerm.numbered (name : String) (degrees : α) : HueTerm α → HueTerm α
  | .degrees hue => .degrees hue
  | .named other => if other = name then .degrees degrees else .named other

namespace Expression

/-- The same expression with a number of degrees in place of a named hue. -/
def numbered (name : String) (degrees : α) : Expression α → Expression α
  | .hsl hue s l => .hsl (hue.numbered name degrees) s l
  | e => e

/-- Saturation and lightness are finite where they are given as numbers of the expression. -/
def HslFinite : Expression Float → Prop
  | .hsl _ s l => s.isFinite = true ∧ l.isFinite = true
  | _ => True

theorem hslFinite_of_read {text : String} {e : Expression Float} (h : read text = .ok e) : e.HslFinite := by
  cases read_eq_ok_iff.mp h with
  | literal => trivial
  | name => trivial
  | call _ _ happlies =>
    cases happlies with
    | hsl _ hs hl =>
      obtain ⟨-, -, -, hs⟩ := hs
      obtain ⟨-, -, -, hl⟩ := hl
      exact ⟨hs, hl⟩
    | _ => trivial

end Expression

section Components

variable {hue s l : Float} (hhue : hue.isFinite = true) (hs : s.isFinite = true) (hl : l.isFinite = true)

include hhue hs hl

theorem Color.make_of_isFinite : make hue s l = .ok ⟨wrapHue hue, clamp s, clamp l⟩ := by
  refine if_pos ?_
  show (hue.isFinite && s.isFinite && l.isFinite) = true
  rw [hhue, hs, hl]
  rfl

theorem Color.make_wrapHue : make (wrapHue hue) s l = make hue s l := by
  rw [make_of_isFinite (Double.isFinite_wrapHue hhue) hs hl, make_of_isFinite hhue hs hl, Double.wrapHue_wrapHue hhue]

end Components

namespace Expression

theorem numbered_named_self (name : String) (degrees s l : α) :
    (Expression.hsl (.named name) s l).numbered name degrees = .hsl (.degrees degrees) s l := by
  simp [numbered, HueTerm.numbered]

theorem numbered_named_of_ne {name other : String} (hne : other ≠ name) (degrees s l : α) :
    (Expression.hsl (.named other) s l).numbered name degrees = .hsl (.named other) s l := by
  simp [numbered, HueTerm.numbered, hne]

variable {hues : HueTable Float} {name : String} {degrees : Float}

theorem alike_numbered (hdegrees : degrees.isFinite = true) (hfound : hues.lookup name = .ok (wrapHue degrees))
    {e : Expression Float} (hfinite : e.HslFinite) : e.Alike hues (e.numbered name degrees) := by
  cases e with
  | hsl hue s l =>
    obtain ⟨hs, hl⟩ := hfinite
    cases hue with
    | degrees => exact .refl _
    | named other =>
      by_cases hother : other = name
      · subst hother
        have hthere : other ∈ hues.names :=
          (hues.mem_names_iff other).mpr ⟨_, (hues.lookup_eq_ok_iff other _).mp hfound⟩
        have hnamed : ∀ colors,
            Expression.eval hues colors (.hsl (.named other) s l) = Color.make (wrapHue degrees) s l :=
          fun _ => bind_of_ok hfound _
        rw [numbered_named_self]
        refine ⟨rfl, ?_, fun colors => ?_⟩
        · simp [missingHue?, hueReferences, (hues.contains_iff_mem_names other).mpr hthere]
        · rw [hnamed, Color.make_wrapHue hdegrees hs hl]
          rfl
      · rw [numbered_named_of_ne hother]
        exact .refl _
  | _ => exact .refl _

end Expression

namespace Palette

/-- The palette with a number of degrees in place of a named hue, in every expression that uses it. -/
def numbered (p : Palette α) (name : String) (degrees : α) : Palette α :=
  p.rewritten fun _ => Expression.numbered name degrees

/-- A named hue is its number. Where every expression that uses the hue has its number in place of the name, a palette
has the same outcome: the same colors or the same fault. So have palettes of texts, if those of the one can be read; if
not, neither of the two resolves. -/
theorem evaluate_numbered {pairs : List (String × Value)} {hues : HueTable Float}
    (hpairs : HueTable.ofPairs pairs = .ok hues) {name : String} {value : Value} (hmem : (name, value) ∈ pairs) :
    ∃ degrees, Gives value degrees ∧
      (∀ p : Palette Float, (∀ entry e, p.find? entry = some e → e.HslFinite) →
        (p.numbered name degrees).evaluate hues = p.evaluate hues) ∧
      ∀ texts others : Texts, RewrittenBy (fun _ => Expression.numbered name degrees) texts others →
        ((∀ entry ∈ texts.names, texts.Readable Float entry) →
          resolve others.entries hues = resolve texts.entries hues) ∧
        ∀ table, resolve others.entries hues = .ok table ↔ resolve texts.entries hues = .ok table := by
  obtain ⟨degrees, hgives, hfound, -⟩ := (HueTable.tabulates_of_ofPairs hpairs).lookup_eq name value hmem
  have hpalette : ∀ p : Palette Float, (∀ entry e, p.find? entry = some e → e.HslFinite) →
      (p.numbered name degrees).evaluate hues = p.evaluate hues := by
    intro p hfinite
    exact evaluate_rewritten fun entry e he => Expression.alike_numbered hgives.isFinite hfound (hfinite entry e he)
  refine ⟨degrees, hgives, hpalette, fun texts others hrewritten => ?_⟩
  have hreadable : (∀ entry ∈ texts.names, texts.Readable Float entry) →
      resolve others.entries hues = resolve texts.entries hues := by
    intro hall
    obtain ⟨p, hparse, hreads⟩ := exists_reads hall
    rw [resolve_of_parse hparse, resolve_of_parse (hrewritten.parse_eq hparse)]
    refine hpalette p fun entry e he => ?_
    obtain ⟨text, -, hread⟩ := (hreads.find?_eq_some_iff entry e).mp he
    exact Expression.hslFinite_of_read hread
  refine ⟨hreadable, fun table => ?_⟩
  by_cases hall : ∀ entry ∈ texts.names, texts.Readable Float entry
  · rw [hreadable hall]
  · refine iff_of_false (fun h => hall ?_) fun h => hall (readable_of_resolve h)
    exact hrewritten.readable_iff.mp (readable_of_resolve h)

section Witness

/-- The first hue is just below zero, so that a whole turn is added to it, and the sum is rounded to the turn. -/
private def circle : List (String × Value) := [("start", .number (-1e-20)), ("azure", .int 210)]

private def named : Texts :=
  ⟨[("deep", "darken(base, 0.25)"), ("base", "hsl($start, 0.5, 0.5)"), ("sky", "hsl($azure, 0.5, 0.75)"),
    ("blend", "mix(deep, sky, 0.5)")], by decide⟩

private def spelled : Texts :=
  ⟨[("deep", "darken(base, 0.25)"), ("base", "hsl(-1e-20, 0.5, 0.5)"), ("sky", "hsl($azure, 0.5, 0.75)"),
    ("blend", "mix(deep, sky, 0.5)")], by decide⟩

private def namedPalette : Palette Float :=
  ⟨[("deep", .adjust "base" 0 (-0.25)), ("base", .hsl (.named "start") 0.5 0.5),
    ("sky", .hsl (.named "azure") 0.5 0.75), ("blend", .mix "deep" "sky" 0.5)], by decide⟩

private theorem rewritten_spelled :
    RewrittenBy (fun _ => Expression.numbered "start" (-1e-20 : Float)) named spelled := by
  have hnamed : Reads named namedPalette := reads_of_parse rfl
  have hspelled : Reads spelled (namedPalette.numbered "start" (-1e-20)) := reads_of_parse rfl
  exact hnamed.rewritten_iff.mp hspelled

theorem evaluate_numbered_circle : ∃ hues : HueTable Float, HueTable.ofPairs circle = .ok hues ∧
    Gives (.number (-1e-20)) (-1e-20) ∧
    RewrittenBy (fun _ => Expression.numbered "start" (-1e-20 : Float)) named spelled ∧
    ∃ table : Table (Color Float), resolve named.entries hues = .ok table ∧
      resolve spelled.entries hues = .ok table := by
  have hpairs : (HueTable.ofPairs circle : Except (Failure Float) (HueTable Float)).isOk = true := by decide +kernel
  obtain ⟨hues, hhues⟩ := exists_ok_of_isOk hpairs
  have hmem : ("start", Value.number (-1e-20)) ∈ circle := List.mem_cons_self
  obtain ⟨degrees, hgives, -, htexts⟩ := evaluate_numbered hhues hmem
  obtain rfl : -1e-20 = degrees := by
    cases hgives
    rfl
  have hok : ((HueTable.ofPairs circle : Except (Failure Float) (HueTable Float)).toOption.map fun hues =>
      (resolve named.entries hues).isOk) = some true := by decide +kernel
  rw [hhues] at hok
  obtain ⟨table, htable⟩ := exists_ok_of_isOk (Option.some.inj hok)
  refine ⟨hues, hhues, hgives, rewritten_spelled, table, htable, ?_⟩
  exact ((htexts named spelled rewritten_spelled).2 table).mpr htable

end Witness

end Palette

end EditorTheme
