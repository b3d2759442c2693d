import EditorTheme.GlobalColor
import EditorTheme.Proofs.Color.Denominators
import EditorTheme.Proofs.Expression.Reading
import EditorTheme.Proofs.Raising.Expression

/-!
Evaluating expressions with operations that can raise: hues and colors are looked up by their names, and the conversion
of a literal divides. Channels that are read from digits are bytes, and for bytes no denominator is zero.
-/

set_option autoImplicit false
set_option relaxedAutoImplicit false

namespace EditorTheme

variable {α : Type}

/-- The channels of a literal are bytes. -/
def Expression.HasBytes : Expression α → Prop
  | .literal c => c.IsBytes
  | _ => True

theorem Expression.Literal.isBytes {cs : List Char} {c : Rgb} (h : Literal cs c) : c.IsBytes := by
  cases h with
  | mk hrh hrl hgh hgl hbh hbl =>
    have hred := (Rgb.digitChar_of_hexValue? hrh).1
    have hred' := (Rgb.digitChar_of_hexValue? hrl).1
    have hgreen := (Rgb.digitChar_of_hexValue? hgh).1
    have hgreen' := (Rgb.digitChar_of_hexValue? hgl).1
    have hblue := (Rgb.digitChar_of_hexValue? hbh).1
    have hblue' := (Rgb.digitChar_of_hexValue? hbl).1
    refine ⟨⟨?_, ?_⟩, ⟨?_, ?_⟩, ?_, ?_⟩ <;> dsimp only <;> omega

namespace Raising

variable [Scalar α]

theorem hasBytes_of_read {text : String} {e : Expression α} (h : Expression.read text = .ok e) : e.HasBytes := by
  cases Expression.read_eq_ok_iff.mp h with
  | literal hliteral => exact hliteral.isBytes
  | call _ _ happlies => cases happlies <;> trivial
  | name _ => trivial

theorem hasBytes_of_ofValue {v : Value} {e : Expression α} (h : Expression.ofValue v = .ok e) : e.HasBytes := by
  cases v with
  | text s => exact hasBytes_of_read (Theme.fault_eq_ok_iff.mp h)
  | _ => cases h

section Conversion

def hueTurns (r g b high range : α) : Except (Exception α) α := do
  let fromRed ← quotient (high - r) range
  let fromGreen ← quotient (high - g) range
  let fromBlue ← quotient (high - b) range
  let sixths :=
    if r == high then fromBlue - fromGreen
    else if g == high then 2 + fromRed - fromBlue
    else 4 + fromGreen - fromRed
  return Scalar.remainder (sixths / 6) 1

def saturationOf (sum range : α) : Except (Exception α) α :=
  if sum / 2 ≤ 0.5 then quotient range sum else quotient range (2 - sum)

def ofUnitChannels (r g b : α) : Except (Exception α) (Color α) :=
  let high := Scalar.larger (Scalar.larger r g) b
  let low := Scalar.smaller (Scalar.smaller r g) b
  let sum := high + low
  let range := high - low
  if low == high then .ok ⟨0, 0, sum / 2⟩
  else do
    let saturation ← saturationOf sum range
    return ⟨← hueTurns r g b high range, saturation, sum / 2⟩

def ofRgb (c : Rgb) : Except (Exception α) (Color α) := do
  let unit ← ofUnitChannels (unitChannel c.red) (unitChannel c.green) (unitChannel c.blue)
  raise (Color.make (wrapHue (unit.hue * 360)) unit.saturation unit.lightness)

theorem hueTurns_eq (r g b high : α) {range : α} (h : (range == 0) = false) :
    hueTurns r g b high range = .ok (Color.hueTurns r g b high range) := by
  unfold hueTurns
  rw [quotient_eq _ h, quotient_eq _ h, quotient_eq _ h]
  rfl

theorem ofUnitChannels_eq [DividesChannels α] {r g b : α} (hr : IsByteChannel r) (hg : IsByteChannel g)
    (hb : IsByteChannel b) : ofUnitChannels r g b = .ok (Color.ofUnitChannels r g b) := by
  have hhigh := (hr.larger hg).larger hb
  have hlow := (hr.smaller hg).smaller hb
  unfold ofUnitChannels Color.ofUnitChannels
  simp only
  generalize Scalar.larger (Scalar.larger r g) b = high at hhigh
  generalize Scalar.smaller (Scalar.smaller r g) b = low at hlow
  cases hequal : low == high with
  | true => rfl
  | false =>
    have hdivisible := hlow.divisible hhigh hequal
    rw [saturationOf, quotient_eq _ hdivisible.sum, quotient_eq _ hdivisible.rest,
      hueTurns_eq r g b high hdivisible.range, ← apply_ite Except.ok]
    rfl

theorem ofRgb_eq [DividesChannels α] {c : Rgb} (h : c.IsBytes) :
    (ofRgb c : Except (Exception α) (Color α)) = raise (Color.ofRgb c) := by
  obtain ⟨hred, hgreen, hblue⟩ := h
  rw [ofRgb, ofUnitChannels_eq ⟨_, hred, rfl⟩ ⟨_, hgreen, rfl⟩ ⟨_, hblue, rfl⟩]
  rfl

end Conversion

section Evaluation

def hueOf (hues : HueTable α) : HueTerm α → Except (Exception α) α
  | .degrees hue => .ok hue
  | .named name => lookUp hues.entries name (.unknownHue name)

def colorOf (colors : Table (Color α)) (name : String) : Except (Exception α) (Color α) :=
  lookUp colors.entries name (.unresolved name)

def eval (hues : HueTable α) (colors : Table (Color α)) : Expression α → Except (Exception α) (Color α)
  | .literal c => ofRgb c
  | .hsl hue s l => do raise (Color.make (← hueOf hues hue) s l)
  | .adjust base s l => do return (← colorOf colors base).adjust s l
  | .mix first second weight => do
    let a ← colorOf colors first
    let b ← colorOf colors second
    raise (Color.mix a b weight)
  | .alias name => colorOf colors name

def evalGlobal (colors : Table (Color α)) (hues : HueTable α) (name : String) (e : Expression α) :
    Except (Exception α) (Color α) :=
  match e.references.find? fun reference => !colors.contains reference with
  | some reference => .error (.theme (.unknownColor reference name))
  | none => eval hues colors e

omit [Scalar α] in
theorem hueOf_eq (hues : HueTable α) (hue : HueTerm α) : hueOf hues hue = raise (hue.eval hues) := by
  cases hue with
  | degrees hue => rfl
  | named name =>
    show lookUp hues.entries name (.unknownHue name) = raise (hues.lookup name)
    unfold HueTable.lookup
    cases hfound : hues.find? name with
    | some hue => exact lookUp_of_some hfound _
    | none => exact lookUp_of_none hfound _

omit [Scalar α] in
theorem colorOf_eq (colors : Table (Color α)) (name : String) :
    colorOf colors name = raise (Expression.lookupColor colors name) := by
  unfold colorOf Expression.lookupColor
  cases hfound : colors.find? name with
  | some c => exact lookUp_of_some hfound _
  | none => exact lookUp_of_none hfound _

theorem eval_eq [DividesChannels α] (hues : HueTable α) (colors : Table (Color α)) {e : Expression α}
    (h : e.HasBytes) : eval hues colors e = raise (e.eval hues colors) := by
  cases e with
  | literal c => exact ofRgb_eq h
  | hsl hue s l =>
    show (hueOf hues hue >>= fun degrees => raise (Color.make degrees s l)) = _
    rw [hueOf_eq, ← raise_bind]
    rfl
  | adjust base s l =>
    show (colorOf colors base >>= fun c => raise (.ok (c.adjust s l))) = _
    rw [colorOf_eq, ← raise_bind]
    rfl
  | mix first second weight =>
    show (colorOf colors first >>= fun a => colorOf colors second >>= fun b => raise (Color.mix a b weight)) = _
    simp only [colorOf_eq, ← raise_bind]
    rfl
  | «alias» name => exact colorOf_eq colors name

theorem evalGlobal_eq [DividesChannels α] (colors : Table (Color α)) (hues : HueTable α) (name : String)
    {e : Expression α} (h : e.HasBytes) :
    evalGlobal colors hues name e = raise (GlobalColor.ofExpression colors hues name e) := by
  unfold evalGlobal GlobalColor.ofExpression
  cases e.references.find? fun reference => !colors.contains reference with
  | some reference => rfl
  | none => exact eval_eq hues colors h

end Evaluation

end Raising

end EditorTheme
