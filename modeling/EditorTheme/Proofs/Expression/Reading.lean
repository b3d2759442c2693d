import EditorTheme.Expression.Reading
import EditorTheme.Proofs.Decimal.Numeral
import EditorTheme.Proofs.Expression.Grammar
import EditorTheme.Proofs.Sequencing

/-!
The grammar of color expressions, with the expression that each text of it stands for. Reading accepts exactly this
grammar, once the blanks at both ends of the text are gone. Any other text is refused: as a bad literal, without
those blanks, when it begins with a number sign, and otherwise as no expression, with the text as it was given.
-/

set_option autoImplicit false
set_option relaxedAutoImplicit false

namespace EditorTheme.Expression

open EditorTheme.Text
open EditorTheme.Decimal (Numeral Writes)

variable {α : Type} [Scalar α]

def Number (cs : List Char) (x : α) : Prop :=
  ∃ n : Numeral, Writes cs n ∧ n.value = x ∧ Scalar.isFinite x = true

inductive Hue : List Char → HueTerm α → Prop
  | degrees {cs : List Char} {x : α} : Number cs x → Hue cs (.degrees x)
  | named {cs : List Char} : Name cs → Hue ('$' :: cs) (.named (String.ofList cs))

/-- A function applied to its arguments, and the expression that this stands for. -/
inductive Applies : Function → List (List Char) → Expression α → Prop
  | hsl {h s l : List Char} {hue : HueTerm α} {x y : α} : Hue h hue → Number s x → Number l y →
      Applies .hsl [h, s, l] (.hsl hue x y)
  | adjust {base s l : List Char} {x y : α} : Name base → Number s x → Number l y →
      Applies .adjust [base, s, l] (.adjust (String.ofList base) x y)
  | darken {base l : List Char} {y : α} : Name base → Number l y →
      Applies .darken [base, l] (.adjust (String.ofList base) 0 (-y))
  | lighten {base l : List Char} {y : α} : Name base → Number l y →
      Applies .lighten [base, l] (.adjust (String.ofList base) 0 y)
  | mix {a b w : List Char} {x : α} : Name a → Name b → Number w x →
      Applies .mix [a, b, w] (.mix (String.ofList a) (String.ofList b) x)

/-- A number sign and six hexadecimal digits, two for each channel. -/
inductive Literal : List Char → Rgb → Prop
  | mk {r r' g g' b b' : Char} {rh rl gh gl bh bl : Nat} :
      Rgb.hexValue? r = some rh → Rgb.hexValue? r' = some rl → Rgb.hexValue? g = some gh →
      Rgb.hexValue? g' = some gl → Rgb.hexValue? b = some bh → Rgb.hexValue? b' = some bl →
      Literal ['#', r, r', g, g', b, b'] ⟨(16 * rh + rl : Nat), (16 * gh + gl : Nat), (16 * bh + bl : Nat)⟩

/-- The parts of a body between its commas, without the blanks around them: as many as the function of the call
takes, and none of them empty. -/
structure Arguments (call : Call) (function : Function) (arguments : List (List Char)) : Prop where
  word : lower call.word = function.name.toList
  parts : ∃ parts : List (List Char), parts ≠ [] ∧ (∀ part ∈ parts, ',' ∉ part) ∧
    [','].intercalate parts = call.body ∧ arguments = parts.map trim
  arity : arguments.length = function.arity
  nonempty : ∀ argument ∈ arguments, argument ≠ []

/-- A text without blanks at its ends, and the expression that it stands for. -/
inductive Grammar : List Char → Expression α → Prop
  | literal {cs : List Char} {c : Rgb} : Literal cs c → Grammar cs (.literal c)
  | call {cs : List Char} {call : Call} {function : Function} {arguments : List (List Char)} {e : Expression α} :
      Calls cs call → Arguments call function arguments → Applies function arguments e → Grammar cs e
  | name {cs : List Char} : Name cs → Grammar cs (.alias (String.ofList cs))

theorem readNumber_eq_ok_iff {cs : List Char} {x : α} : readNumber cs = .ok x ↔ Number cs x := by
  unfold readNumber Number
  simp only [← Decimal.Numeral.read?_eq_some_iff]
  cases Numeral.read? cs with
  | none => simp
  | some n =>
    simp only [Option.some.injEq, exists_eq_left']
    split
    · rename_i hfinite
      constructor
      · intro h
        obtain rfl := Except.ok.inj h
        exact ⟨rfl, hfinite⟩
      · rintro ⟨rfl, -⟩
        rfl
    · rename_i hfinite
      constructor
      · intro h
        cases h
      · rintro ⟨rfl, h⟩
        exact absurd h hfinite

theorem readName_eq_ok_iff {cs : List Char} {name : String} :
    readName cs = .ok name ↔ Name cs ∧ String.ofList cs = name := by
  unfold readName
  split
  · rename_i hdollar
    constructor
    · intro h
      cases h
    · rintro ⟨hname, -⟩
      exact absurd hdollar hname.head_ne.2
  · split
    · rename_i hname
      simp [isName_iff.mp hname]
    · rename_i hname
      constructor
      · intro h
        cases h
      · rintro ⟨h, -⟩
        exact absurd (isName_iff.mpr h) hname

theorem readHueTerm_eq_ok_iff {cs : List Char} {hue : HueTerm α} : readHueTerm cs = .ok hue ↔ Hue cs hue := by
  unfold readHueTerm
  constructor
  · intro h
    split at h
    · rename_i hdollar
      split at h
      · rename_i hname
        obtain ⟨rest, rfl⟩ := List.head?_eq_some_iff.mp hdollar
        cases h
        exact .named (isName_iff.mp hname)
      · cases h
    · obtain ⟨x, hx, hpure⟩ := bind_eq_ok.mp h
      obtain rfl := pure_eq_ok.mp hpure
      exact .degrees (readNumber_eq_ok_iff.mp hx)
  · intro h
    cases h with
    | degrees hnumber =>
      obtain ⟨n, hwrites, -⟩ := id hnumber
      rw [if_neg hwrites.head_ne_dollar, bind_of_ok (readNumber_eq_ok_iff.mpr hnumber)]
      rfl
    | named hname =>
      rw [if_pos List.head?_cons]
      exact if_pos (isName_iff.mpr hname)

theorem ofArguments_eq_ok_iff {function : Function} {arguments : List (List Char)} {e : Expression α} :
    ofArguments function arguments = .ok e ↔ Applies function arguments e := by
  constructor
  · intro h
    unfold ofArguments at h
    split at h
    · obtain ⟨hue, hhue, h⟩ := bind_eq_ok.mp h
      obtain ⟨x, hx, h⟩ := bind_eq_ok.mp h
      obtain ⟨y, hy, h⟩ := bind_eq_ok.mp h
      obtain rfl := pure_eq_ok.mp h
      exact .hsl (readHueTerm_eq_ok_iff.mp hhue) (readNumber_eq_ok_iff.mp hx) (readNumber_eq_ok_iff.mp hy)
    · obtain ⟨base, hbase, h⟩ := bind_eq_ok.mp h
      obtain ⟨x, hx, h⟩ := bind_eq_ok.mp h
      obtain ⟨y, hy, h⟩ := bind_eq_ok.mp h
      obtain rfl := pure_eq_ok.mp h
      obtain ⟨hname, rfl⟩ := readName_eq_ok_iff.mp hbase
      exact .adjust hname (readNumber_eq_ok_iff.mp hx) (readNumber_eq_ok_iff.mp hy)
    · obtain ⟨base, hbase, h⟩ := bind_eq_ok.mp h
      obtain ⟨y, hy, h⟩ := bind_eq_ok.mp h
      obtain rfl := pure_eq_ok.mp h
      obtain ⟨hname, rfl⟩ := readName_eq_ok_iff.mp hbase
      exact .darken hname (readNumber_eq_ok_iff.mp hy)
    · obtain ⟨base, hbase, h⟩ := bind_eq_ok.mp h
      obtain ⟨y, hy, h⟩ := bind_eq_ok.mp h
      obtain rfl := pure_eq_ok.mp h
      obtain ⟨hname, rfl⟩ := readName_eq_ok_iff.mp hbase
      exact .lighten hname (readNumber_eq_ok_iff.mp hy)
    · obtain ⟨first, hfirst, h⟩ := bind_eq_ok.mp h
      obtain ⟨second, hsecond, h⟩ := bind_eq_ok.mp h
      obtain ⟨x, hx, h⟩ := bind_eq_ok.mp h
      obtain rfl := pure_eq_ok.mp h
      obtain ⟨hname, rfl⟩ := readName_eq_ok_iff.mp hfirst
      obtain ⟨hname', rfl⟩ := readName_eq_ok_iff.mp hsecond
      exact .mix hname hname' (readNumber_eq_ok_iff.mp hx)
    · cases h
  · have hname : ∀ {cs : List Char}, Name cs → readName cs = .ok (String.ofList cs) :=
      fun h => readName_eq_ok_iff.mpr ⟨h, rfl⟩
    intro h
    cases h with
    | hsl hhue hx hy =>
      rw [ofArguments, bind_of_ok (readHueTerm_eq_ok_iff.mpr hhue), bind_of_ok (readNumber_eq_ok_iff.mpr hx),
        bind_of_ok (readNumber_eq_ok_iff.mpr hy)]
      rfl
    | adjust hbase hx hy =>
      rw [ofArguments, bind_of_ok (hname hbase), bind_of_ok (readNumber_eq_ok_iff.mpr hx),
        bind_of_ok (readNumber_eq_ok_iff.mpr hy)]
      rfl
    | darken hbase hy =>
      rw [ofArguments, bind_of_ok (hname hbase), bind_of_ok (readNumber_eq_ok_iff.mpr hy)]
      rfl
    | lighten hbase hy =>
      rw [ofArguments, bind_of_ok (hname hbase), bind_of_ok (readNumber_eq_ok_iff.mpr hy)]
      rfl
    | mix hfirst hsecond hx =>
      rw [ofArguments, bind_of_ok (hname hfirst), bind_of_ok (hname hsecond),
        bind_of_ok (readNumber_eq_ok_iff.mpr hx)]
      rfl

theorem call_arguments_eq_iff {call : Call} {arguments : List (List Char)} :
    call.arguments = arguments ↔ ∃ parts : List (List Char), parts ≠ [] ∧ (∀ part ∈ parts, ',' ∉ part) ∧
      [','].intercalate parts = call.body ∧ arguments = parts.map trim := by
  unfold Call.arguments
  constructor
  · rintro rfl
    obtain ⟨hne, hparts, hbody⟩ := splitOn_eq_iff.mp (Eq.refl (call.body.splitOn ','))
    exact ⟨call.body.splitOn ',', hne, hparts, hbody, rfl⟩
  · rintro ⟨parts, hne, hparts, hbody, rfl⟩
    rw [splitOn_eq_iff.mpr ⟨hne, hparts, hbody⟩]

theorem checkArguments_eq_ok_iff {call : Call} {function : Function} {arguments : List (List Char)}
    (hword : lower call.word = function.name.toList) :
    checkArguments function call = .ok arguments ↔ Arguments call function arguments := by
  unfold checkArguments
  constructor
  · intro h
    split at h
    · cases h
    · rename_i harity
      split at h
      · cases h
      · rename_i hempty
        obtain rfl := Except.ok.inj h
        refine ⟨hword, call_arguments_eq_iff.mp rfl, not_not.mp harity, ?_⟩
        rintro argument hmem rfl
        exact hempty (List.any_eq_true.mpr ⟨[], hmem, rfl⟩)
  · intro h
    have harguments : call.arguments = arguments := call_arguments_eq_iff.mpr h.parts
    have hempty : ¬ arguments.any List.isEmpty = true := by
      intro hany
      obtain ⟨argument, hmem, hargument⟩ := List.any_eq_true.mp hany
      exact h.nonempty argument hmem (List.isEmpty_iff.mp hargument)
    rw [harguments, if_neg (not_not.mpr h.arity), if_neg hempty]

theorem readCall_eq_ok_iff {call : Call} {e : Expression α} :
    readCall call = .ok e ↔
      ∃ function arguments, Arguments call function arguments ∧ Applies function arguments e := by
  unfold readCall
  constructor
  · intro h
    split at h
    · cases h
    · rename_i function hfunction
      obtain ⟨arguments, harguments, happlies⟩ := bind_eq_ok.mp h
      have hword := Function.ofWord?_eq_some_iff.mp hfunction
      exact ⟨function, arguments, (checkArguments_eq_ok_iff hword).mp harguments, ofArguments_eq_ok_iff.mp happlies⟩
  · rintro ⟨function, arguments, harguments, happlies⟩
    rw [Function.ofWord?_eq_some_iff.mpr harguments.word]
    have hchecked := (checkArguments_eq_ok_iff harguments.word).mpr harguments
    exact (bind_of_ok hchecked _).trans (ofArguments_eq_ok_iff.mpr happlies)

omit [Scalar α] in
theorem parse_eq_ok_iff {cs : List Char} (hsign : cs.head? = some '#') {c : Rgb} :
    (Rgb.parse (String.ofList cs) : Except (ThemeError α) Rgb) = .ok c ↔ Literal cs c := by
  obtain ⟨digits, rfl⟩ := List.head?_eq_some_iff.mp hsign
  have hparse : (Rgb.parse (String.ofList ('#' :: digits)) : Except (ThemeError α) Rgb) = .ok c ↔
      Rgb.ofHex? ('#' :: digits) = some c := by
    unfold Rgb.parse
    rw [String.toList_ofList]
    cases Rgb.ofHex? ('#' :: digits) <;> simp
  rw [hparse]
  simp only [Rgb.ofHex?, List.head?_cons, if_true, List.tail_cons]
  constructor
  · intro h
    split at h
    · simp only [Rgb.channel?, Option.bind_eq_bind, Option.bind_eq_some_iff, Option.pure_def,
        Option.some.injEq] at h
      obtain ⟨_, ⟨rh, hrh, rl, hrl, rfl⟩, _, ⟨gh, hgh, gl, hgl, rfl⟩, _, ⟨bh, hbh, bl, hbl, rfl⟩, rfl⟩ := h
      exact .mk hrh hrl hgh hgl hbh hbl
    · cases h
  · rintro ⟨hrh, hrl, hgh, hgl, hbh, hbl⟩
    simp [Rgb.channel?, hrh, hrl, hgh, hgl, hbh, hbl]

theorem Grammar.literal_of_head {cs : List Char} {e : Expression α} (h : Grammar cs e)
    (hsign : cs.head? = some '#') : ∃ c, Literal cs c ∧ e = .literal c := by
  cases h with
  | literal hliteral => exact ⟨_, hliteral, rfl⟩
  | call hcalls => exact absurd hsign hcalls.head_ne
  | name hname => exact absurd hsign hname.head_ne.1

theorem readTerm_eq_ok_iff {cs : List Char} (hsign : cs.head? ≠ some '#') {e : Expression α} :
    readTerm cs = .ok e ↔ Grammar cs e := by
  unfold readTerm
  constructor
  · intro h
    split at h
    · rename_i call hcall
      obtain ⟨function, arguments, harguments, happlies⟩ := readCall_eq_ok_iff.mp h
      exact .call (Call.read?_eq_some_iff.mp hcall) harguments happlies
    · split at h
      · rename_i hname
        obtain rfl := Except.ok.inj h
        exact .name (isName_iff.mp hname)
      · cases h
  · intro h
    cases h with
    | literal hliteral =>
      cases hliteral
      exact absurd rfl hsign
    | call hcalls harguments happlies =>
      rw [Call.read?_eq_some_iff.mpr hcalls]
      exact readCall_eq_ok_iff.mpr ⟨_, _, harguments, happlies⟩
    | name hname =>
      -- Calls are tried before names, but no name is a call.
      have hnone : Call.read? cs = none := by
        cases hcall : Call.read? cs with
        | none => rfl
        | some call => exact absurd (Call.read?_eq_some_iff.mp hcall) (hname.not_calls call)
      rw [hnone]
      exact if_pos (isName_iff.mpr hname)

theorem not_grammar_nil (e : Expression α) : ¬ Grammar [] e := by
  intro h
  cases h with
  | literal hliteral => cases hliteral
  | call hcalls => generalize hcs : [] = cs at hcalls; cases hcalls; simp at hcs
  | name hname => cases hname

theorem read_eq_ok_iff {text : String} {e : Expression α} :
    read text = .ok e ↔ Grammar (trim text.toList) e := by
  unfold read
  simp only
  split
  · rename_i hblank
    rw [List.isEmpty_iff.mp hblank]
    constructor
    · intro h
      cases h
    · intro h
      exact absurd h (not_grammar_nil e)
  · split
    · rename_i hsign
      constructor
      · intro h
        obtain ⟨c, hc, hpure⟩ := bind_eq_ok.mp h
        obtain rfl := pure_eq_ok.mp hpure
        exact .literal ((parse_eq_ok_iff hsign).mp hc)
      · intro h
        obtain ⟨c, hliteral, rfl⟩ := h.literal_of_head hsign
        exact bind_of_ok ((parse_eq_ok_iff hsign).mpr hliteral) _
    · rename_i hsign
      rw [← readTerm_eq_ok_iff hsign]
      cases (readTerm (trim text.toList) : Except SyntaxFault (Expression α)) with
      | error fault => simp [Except.mapError]
      | ok e' => simp [Except.mapError]

theorem error_of_read {text : String} {error : ThemeError α}
    (h : (read text : Except (ThemeError α) (Expression α)) = .error error) :
    ((trim text.toList).head? = some '#' ∧ error = .invalidHex (.text (trimmed text))) ∨
      ((trim text.toList).head? ≠ some '#' ∧ ∃ fault, error = .badExpression (.text text) fault) := by
  unfold read at h
  simp only at h
  split at h
  · rename_i hblank
    cases h
    exact Or.inr ⟨by simp [List.isEmpty_iff.mp hblank], _, rfl⟩
  · split at h
    · rename_i hsign
      rcases bind_eq_error.mp h with hparse | ⟨c, -, hpure⟩
      · unfold Rgb.parse at hparse
        split at hparse
        · cases hparse
        · cases hparse
          exact Or.inl ⟨hsign, rfl⟩
      · exact absurd hpure pure_ne_error
    · rename_i hsign
      refine Or.inr ⟨hsign, ?_⟩
      cases hterm : (readTerm (trim text.toList) : Except SyntaxFault (Expression α)) with
      | ok e =>
        rw [hterm] at h
        cases h
      | error fault =>
        rw [hterm] at h
        cases h
        exact ⟨fault, rfl⟩

/-- Reading accepts exactly the grammar, with the expression that a text stands for, and refuses everything else. -/
theorem read_iff_grammar (text : String) :
    (∀ e : Expression α, read text = .ok e ↔ Grammar (trim text.toList) e) ∧
      ((¬ ∃ e : Expression α, Grammar (trim text.toList) e) →
        ((trim text.toList).head? = some '#' →
          (read text : Except (ThemeError α) (Expression α)) = .error (.invalidHex (.text (trimmed text)))) ∧
        ((trim text.toList).head? ≠ some '#' → ∃ fault,
          (read text : Except (ThemeError α) (Expression α)) = .error (.badExpression (.text text) fault))) := by
  refine ⟨fun e => read_eq_ok_iff, fun hnone => ?_⟩
  cases h : (read text : Except (ThemeError α) (Expression α)) with
  | ok e => exact absurd ⟨e, read_eq_ok_iff.mp h⟩ hnone
  | error error =>
    rcases error_of_read h with ⟨hsign, rfl⟩ | ⟨hsign, fault, rfl⟩
    · exact ⟨fun _ => rfl, fun hno => absurd hsign hno⟩
    · exact ⟨fun hyes => absurd hyes hsign, fun _ => ⟨fault, rfl⟩⟩

end EditorTheme.Expression
