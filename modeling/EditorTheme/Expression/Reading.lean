import EditorTheme.Decimal.Numeral
import EditorTheme.Expression
import EditorTheme.Expression.Grammar

/-!
Reading color expressions. A text is a literal when it begins with a number sign, else a call or a name; the
first fault from left to right is reported, with the text as it was given.
-/

set_option autoImplicit false
set_option relaxedAutoImplicit false

namespace EditorTheme.Expression

open EditorTheme.Text
open EditorTheme.Decimal (Numeral)

variable {α : Type} [Scalar α]

def readNumber (cs : List Char) : Except SyntaxFault α :=
  match Numeral.read? cs with
  | none => .error (.notNumber (String.ofList cs))
  | some n =>
    if Scalar.isFinite (n.value : α) then .ok n.value else .error (.numberTooLarge (String.ofList cs))

def readName (cs : List Char) : Except SyntaxFault String :=
  if cs.head? = some '$' then .error (.hueNotAllowed (String.ofList cs))
  else if isName cs then .ok (String.ofList cs)
  else .error (.notName (String.ofList cs))

def readHueTerm (cs : List Char) : Except SyntaxFault (HueTerm α) :=
  if cs.head? = some '$' then
    if isName cs.tail then .ok (.named (String.ofList cs.tail)) else .error (.badHueName (String.ofList cs))
  else do return .degrees (← readNumber cs)

/-- The arguments of a call of a function, which must be as many as it takes and none of them empty. -/
def checkArguments (function : Function) (call : Call) : Except SyntaxFault (List (List Char)) :=
  if call.arguments.length ≠ function.arity then
    .error (.argumentCount function.name function.arity call.arguments.length)
  else if call.arguments.any List.isEmpty then .error .emptyArgument
  else .ok call.arguments

/-- The expression of a function and its arguments. The shapes that `checkArguments` excludes are named by
their argument count. -/
def ofArguments : Function → List (List Char) → Except SyntaxFault (Expression α)
  | .hsl, [h, s, l] => do return .hsl (← readHueTerm h) (← readNumber s) (← readNumber l)
  | .adjust, [base, s, l] => do return .adjust (← readName base) (← readNumber s) (← readNumber l)
  | .darken, [base, l] => do return .adjust (← readName base) 0 (-(← readNumber l))
  | .lighten, [base, l] => do return .adjust (← readName base) 0 (← readNumber l)
  | .mix, [a, b, w] => do return .mix (← readName a) (← readName b) (← readNumber w)
  | function, arguments =>
    .error (.argumentCount function.name function.arity arguments.length)

def readCall (call : Call) : Except SyntaxFault (Expression α) :=
  match Function.ofWord? call.word with
  | none => .error (.unknownFunction (String.ofList call.word))
  | some function => do ofArguments function (← checkArguments function call)

def readTerm (cs : List Char) : Except SyntaxFault (Expression α) :=
  match Call.read? cs with
  | some call => readCall call
  | none => if isName cs then .ok (.alias (String.ofList cs)) else .error .notExpression

/-- Reads an expression. A fault is reported with the whole text, a bad literal without the blanks around it. -/
def read (text : String) : Except (ThemeError α) (Expression α) :=
  let cs := trim text.toList
  if cs.isEmpty then .error (.badExpression (.text text) .blank)
  else if cs.head? = some '#' then do return .literal (← Rgb.parse (String.ofList cs))
  else (readTerm cs).mapError (.badExpression (.text text))

def ofValue : Value → Except (Failure α) (Expression α)
  | .text s => Theme.fault (read s)
  | v => .error (.showing v (.badExpression · .notText))

end EditorTheme.Expression
