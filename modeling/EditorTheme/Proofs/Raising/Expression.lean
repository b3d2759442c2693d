import EditorTheme.Expression.Reading
import EditorTheme.Proofs.Raising.Writing
import Mathlib.Tactic.SplitIfs

/-!
Reading expressions with operations that can raise: the digits of a literal are turned into numbers, and the arguments of
a call are taken by their places. The checks before them keep all of them from raising.
-/

set_option autoImplicit false
set_option relaxedAutoImplicit false

namespace EditorTheme.Raising

open EditorTheme.Text
open EditorTheme.Expression

variable {α : Type}

def isHexText (digits : List Char) : Bool := digits.length = 6 && digits.all fun c => (Rgb.hexValue? c).isSome

def readHex (text : String) : Except (Exception α) Rgb :=
  let digits := if text.toList.head? = some '#' then text.toList.tail else text.toList
  if isHexText digits then do
    let red ← hexNumber (digits.take 2)
    let green ← hexNumber ((digits.drop 2).take 2)
    let blue ← hexNumber ((digits.drop 4).take 2)
    return ⟨red, green, blue⟩
  else .error (.theme (.invalidHex (.text text)))

def fault {β : Type} (text : String) (r : Except SyntaxFault β) : Except (Exception α) β :=
  raise (r.mapError (.badExpression (.text text)))

theorem fault_bind {β γ : Type} (text : String) (x : Except SyntaxFault β) (f : β → Except SyntaxFault γ) :
    (fault text (x >>= f) : Except (Exception α) γ) = (fault text x >>= fun b => fault text (f b)) := by
  cases x <;> rfl

section Literals

theorem isSome_channel? (high low : Char) :
    (Rgb.channel? high low).isSome = ((Rgb.hexValue? high).isSome && (Rgb.hexValue? low).isSome) := by
  unfold Rgb.channel?
  cases Rgb.hexValue? high with
  | none => rfl
  | some h => cases Rgb.hexValue? low <;> rfl

theorem readHex_eq (text : String) : (readHex text : Except (Exception α) Rgb) = raise (Rgb.parse text) := by
  unfold readHex Rgb.parse Rgb.ofHex?
  simp only
  generalize (if text.toList.head? = some '#' then text.toList.tail else text.toList) = digits
  rcases digits with _ | ⟨a, _ | ⟨b, _ | ⟨c, _ | ⟨d, _ | ⟨e, _ | ⟨f, _ | ⟨g, rest⟩⟩⟩⟩⟩⟩⟩
  case cons.cons.cons.cons.cons.cons.nil =>
    have hdigits : isHexText [a, b, c, d, e, f] =
        ((Rgb.channel? a b).isSome && ((Rgb.channel? c d).isSome && (Rgb.channel? e f).isSome)) := by
      simp [isHexText, isSome_channel?, Bool.and_assoc]
    rw [hdigits]
    cases hred : Rgb.channel? a b with
    | none => simp [hred, raise, Except.mapError]
    | some red =>
      cases hgreen : Rgb.channel? c d with
      | none => simp [hred, hgreen, raise, Except.mapError]
      | some green =>
        cases hblue : Rgb.channel? e f with
        | none => simp [hred, hgreen, hblue, raise, Except.mapError]
        | some blue => simp [hexNumber, hred, hgreen, hblue, bind, Except.bind]
  all_goals rfl

end Literals

variable [Scalar α]

def build (text : String) (function : Function) (arguments : List (List Char)) :
    Except (Exception α) (Expression α) :=
  match function with
  | .hsl => do
    let hue ← fault text (readHueTerm (← item arguments 0))
    let saturation ← fault text (readNumber (← item arguments 1))
    let lightness ← fault text (readNumber (← item arguments 2))
    return .hsl hue saturation lightness
  | .adjust => do
    let base ← fault text (readName (← item arguments 0))
    let saturation ← fault text (readNumber (← item arguments 1))
    let lightness ← fault text (readNumber (← item arguments 2))
    return .adjust base saturation lightness
  | .darken => do
    let base ← fault text (readName (← item arguments 0))
    let lightness ← fault text (readNumber (← item arguments 1))
    return .adjust base 0 (-lightness)
  | .lighten => do
    let base ← fault text (readName (← item arguments 0))
    let lightness ← fault text (readNumber (← item arguments 1))
    return .adjust base 0 lightness
  | .mix => do
    let first ← fault text (readName (← item arguments 0))
    let second ← fault text (readName (← item arguments 1))
    let weight ← fault text (readNumber (← item arguments 2))
    return .mix first second weight

def readTerm (text : String) (cs : List Char) : Except (Exception α) (Expression α) :=
  match Call.read? cs with
  | none =>
    if isName cs then .ok (.alias (String.ofList cs)) else fault text (.error .notExpression)
  | some call =>
    match Function.ofWord? call.word with
    | none => fault text (.error (.unknownFunction (String.ofList call.word)))
    | some function => do build text function (← fault text (checkArguments function call))

def readExpression (depth : Nat) : Value → Except (Exception α) (Expression α)
  | .text text =>
    let cs := trim text.toList
    if cs.isEmpty then fault text (.error .blank)
    else if cs.head? = some '#' then do return .literal (← readHex (String.ofList cs))
    else readTerm text cs
  | v => fail depth v (.badExpression · .notText)

theorem build_eq (text : String) (function : Function) {arguments : List (List Char)}
    (h : arguments.length = function.arity) :
    (build text function arguments : Except (Exception α) (Expression α)) =
      fault text (ofArguments function arguments) := by
  cases function with
  | hsl =>
    obtain ⟨a, b, c, rfl⟩ := List.length_eq_three.mp h
    simp only [build, ofArguments, fault_bind]
    rfl
  | adjust =>
    obtain ⟨a, b, c, rfl⟩ := List.length_eq_three.mp h
    simp only [build, ofArguments, fault_bind]
    rfl
  | darken =>
    obtain ⟨a, b, rfl⟩ := List.length_eq_two.mp h
    simp only [build, ofArguments, fault_bind]
    rfl
  | lighten =>
    obtain ⟨a, b, rfl⟩ := List.length_eq_two.mp h
    simp only [build, ofArguments, fault_bind]
    rfl
  | mix =>
    obtain ⟨a, b, c, rfl⟩ := List.length_eq_three.mp h
    simp only [build, ofArguments, fault_bind]
    rfl

theorem readTerm_eq (text : String) (cs : List Char) :
    (readTerm text cs : Except (Exception α) (Expression α)) = fault text (Expression.readTerm cs) := by
  unfold readTerm Expression.readTerm
  cases Call.read? cs with
  | none =>
    simp only
    split <;> rfl
  | some call =>
    simp only
    unfold readCall
    cases Function.ofWord? call.word with
    | none => rfl
    | some function =>
      simp only
      rw [fault_bind]
      -- The number of arguments is known only where the check has succeeded.
      cases hcheck : checkArguments function call with
      | error f => rfl
      | ok arguments =>
        have hlength : arguments.length = function.arity := by
          unfold checkArguments at hcheck
          split_ifs at hcheck with hcount hempty
          rw [← Except.ok.inj hcheck]
          exact not_not.mp hcount
        exact build_eq text function hlength

theorem readExpression_text (depth : Nat) (s : String) :
    (readExpression depth (.text s) : Except (Exception α) (Expression α)) = raise (Expression.read s) := by
  unfold readExpression Expression.read
  simp only
  split_ifs with hblank hmark
  · rfl
  · rw [readHex_eq, raise_bind]
    rfl
  · exact readTerm_eq s (trim s.toList)

theorem readExpression_agrees (depth : Nat) (v : Value) :
    AgreesUnless (depth < v.depth) (readExpression depth v : Except (Exception α) (Expression α))
      ((Expression.ofValue v).mapError exceptionOf) := by
  cases v with
  | text s =>
    left
    rw [readExpression_text, Expression.ofValue, mapError_fault]
  | _ => exact fail_agrees depth _ _

end EditorTheme.Raising
