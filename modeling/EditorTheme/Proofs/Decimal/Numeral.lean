import EditorTheme.Decimal.Numeral
import EditorTheme.Proofs.Text.Scanning

/-!
The grammar of decimal numerals: a sign or none; digits, perhaps with a point and more digits, or a point and
digits; and an exponent or none. Reading accepts exactly this grammar and finds the number that is written.
-/

set_option autoImplicit false
set_option relaxedAutoImplicit false

namespace EditorTheme.Decimal

open EditorTheme.Text

/-- A sign, and whether it negates. -/
inductive Sign : List Char → Bool → Prop
  | absent : Sign [] false
  | plus : Sign ['+'] false
  | minus : Sign ['-'] true

def Digits (cs : List Char) : Prop := ∀ c ∈ cs, isDecimalDigit c = true

/-- The part before the exponent, with its digits before the point and after it. -/
inductive Mantissa : List Char → List Char → List Char → Prop
  | whole {ds : List Char} : ds ≠ [] → Digits ds → Mantissa ds ds []
  | pointed {whole fraction : List Char} : whole ≠ [] → Digits whole → Digits fraction →
      Mantissa (whole ++ '.' :: fraction) whole fraction
  | fraction {ds : List Char} : ds ≠ [] → Digits ds → Mantissa ('.' :: ds) [] ds

inductive Exponent : List Char → Int → Prop
  | absent : Exponent [] 0
  | marked {mark : Char} {sign ds : List Char} {negative : Bool} : mark = 'e' ∨ mark = 'E' →
      Sign sign negative → ds ≠ [] → Digits ds →
      Exponent (mark :: (sign ++ ds)) (if negative then -(digitsValue ds : Int) else digitsValue ds)

/-- A text is a numeral and writes the number `n`. -/
inductive Writes : List Char → Numeral → Prop
  | mk {sign mantissa exponent whole fraction : List Char} {negative : Bool} {k : Int} :
      Sign sign negative → Mantissa mantissa whole fraction → Exponent exponent k →
      Writes (sign ++ (mantissa ++ exponent)) ⟨negative, digitsValue (whole ++ fraction), k - fraction.length⟩

section Pieces

theorem isDecimalDigit_sign {c : Char} (h : c = '+' ∨ c = '-' ∨ c = '.' ∨ c = 'e' ∨ c = 'E' ∨ c = '$') :
    isDecimalDigit c = false := by
  rcases h with rfl | rfl | rfl | rfl | rfl | rfl <;> decide

theorem Digits.head_ne_sign {ds : List Char} (h : Digits ds) (hne : ds ≠ []) (rest : List Char) :
    (ds ++ rest).head? ≠ some '-' ∧ (ds ++ rest).head? ≠ some '+' := by
  cases ds with
  | nil => contradiction
  | cons c ds =>
    have hc : isDecimalDigit c = true := h c List.mem_cons_self
    constructor
    · rintro heq
      obtain rfl : c = '-' := by simpa using heq
      simp [isDecimalDigit_sign] at hc
    · rintro heq
      obtain rfl : c = '+' := by simpa using heq
      simp [isDecimalDigit_sign] at hc

theorem takeSign_of_sign {sign : List Char} {negative : Bool} (h : Sign sign negative) {rest : List Char}
    (hminus : rest.head? ≠ some '-') (hplus : rest.head? ≠ some '+') :
    takeSign (sign ++ rest) = (negative, rest) := by
  cases h with
  | plus => rfl
  | minus => rfl
  | absent =>
    rw [List.nil_append]
    unfold takeSign
    split
    · simp at hminus
    · simp at hplus
    · rfl

theorem sign_of_takeSign (cs : List Char) :
    ∃ sign, Sign sign (takeSign cs).1 ∧ cs = sign ++ (takeSign cs).2 := by
  unfold takeSign
  split
  · exact ⟨['-'], .minus, rfl⟩
  · exact ⟨['+'], .plus, rfl⟩
  · exact ⟨[], .absent, rfl⟩

theorem takeDigits_of_digits {ds rest : List Char} (hds : Digits ds)
    (hrest : ∀ c ∈ rest.head?, isDecimalDigit c = false) : takeDigits (ds ++ rest) = (ds, rest) := by
  unfold takeDigits
  rw [takeWhile_run hds hrest, dropWhile_run hds hrest]

theorem digits_of_takeDigits (cs : List Char) :
    Digits (takeDigits cs).1 ∧ cs = (takeDigits cs).1 ++ (takeDigits cs).2 :=
  ⟨fun _ hc => List.mem_takeWhile_imp hc, List.takeWhile_append_dropWhile.symm⟩

theorem takeFraction_of_not_point {cs : List Char} (h : cs.head? ≠ some '.') : takeFraction cs = ([], cs) := by
  unfold takeFraction
  split
  · simp at h
  · rfl

theorem fraction_of_takeFraction (cs : List Char) :
    (∃ rest, cs = '.' :: rest ∧ takeFraction cs = takeDigits rest) ∨ takeFraction cs = ([], cs) := by
  unfold takeFraction
  split
  · exact Or.inl ⟨_, rfl, rfl⟩
  · exact Or.inr rfl

end Pieces

theorem readExponent_eq_some_iff {cs : List Char} {k : Int} : readExponent cs = some k ↔ Exponent cs k := by
  constructor
  · intro h
    cases cs with
    | nil =>
      obtain rfl : 0 = k := by simpa [readExponent] using h
      exact .absent
    | cons mark cs =>
      obtain ⟨sign, hsign, hcs⟩ := sign_of_takeSign cs
      obtain ⟨hdigits, hrest⟩ := digits_of_takeDigits (takeSign cs).2
      simp only [readExponent] at h
      split at h
      · rename_i hcond
        simp only [Bool.and_eq_true, Bool.or_eq_true, decide_eq_true_eq, Bool.not_eq_true',
          List.isEmpty_eq_false_iff, List.isEmpty_iff] at hcond
        obtain ⟨⟨hmark, hne⟩, hend⟩ := hcond
        rw [hend, List.append_nil] at hrest
        rw [hcs]
        rw [← hrest] at h hdigits hne
        cases h
        exact .marked hmark hsign hne hdigits
      · cases h
  · intro h
    cases h with
    | absent => rfl
    | @marked mark sign ds negative hmark hsign hne hdigits =>
      have hheads := hdigits.head_ne_sign hne []
      rw [List.append_nil] at hheads
      have htake : takeSign (sign ++ ds) = (negative, ds) := takeSign_of_sign hsign hheads.1 hheads.2
      have hend : ∀ c ∈ ([] : List Char).head?, isDecimalDigit c = false := by simp
      have hall : takeDigits ds = (ds, []) := by
        simpa using takeDigits_of_digits hdigits hend
      have hnonempty : ds.isEmpty = false := by simpa using hne
      simp [readExponent, htake, hall, hmark, hnonempty]

theorem Exponent.head_ne {cs : List Char} {k : Int} (h : Exponent cs k) :
    cs.head? ≠ some '.' ∧ ∀ c ∈ cs.head?, isDecimalDigit c = false := by
  cases h with
  | absent => simp
  | @marked mark sign ds negative hmark =>
    refine ⟨?_, ?_⟩
    · rcases hmark with rfl | rfl <;> simp
    · intro c hc
      obtain rfl : mark = c := by simpa using hc
      rcases hmark with rfl | rfl <;> exact isDecimalDigit_sign (by simp)

theorem Mantissa.head_ne_sign {mantissa whole fraction : List Char} (h : Mantissa mantissa whole fraction)
    (rest : List Char) : (mantissa ++ rest).head? ≠ some '-' ∧ (mantissa ++ rest).head? ≠ some '+' := by
  cases h with
  | whole hne hdigits => exact hdigits.head_ne_sign hne rest
  | pointed hne hdigits _ =>
    rw [List.append_assoc]
    exact hdigits.head_ne_sign hne _
  | fraction => simp

theorem Mantissa.take {mantissa whole fraction : List Char} (h : Mantissa mantissa whole fraction)
    {exponent : List Char} {k : Int} (hexponent : Exponent exponent k) :
    ∃ rest, takeDigits (mantissa ++ exponent) = (whole, rest) ∧ takeFraction rest = (fraction, exponent) := by
  obtain ⟨hpoint, hhead⟩ := hexponent.head_ne
  cases h with
  | whole _ hdigits => exact ⟨exponent, takeDigits_of_digits hdigits hhead, takeFraction_of_not_point hpoint⟩
  | pointed _ hwhole hfraction =>
    refine ⟨'.' :: (fraction ++ exponent), ?_, takeDigits_of_digits hfraction hhead⟩
    rw [List.append_assoc, List.cons_append]
    exact takeDigits_of_digits hwhole (by simpa using isDecimalDigit_sign (by simp))
  | fraction _ hdigits =>
    have hnone : Digits [] := by simp [Digits]
    refine ⟨'.' :: (fraction ++ exponent), ?_, takeDigits_of_digits hdigits hhead⟩
    exact takeDigits_of_digits hnone (by simpa using isDecimalDigit_sign (by simp))

theorem mantissa_of_take {cs whole fraction rest exponent : List Char} (hwhole : takeDigits cs = (whole, rest))
    (hfraction : takeFraction rest = (fraction, exponent)) (hdigit : whole = [] → fraction ≠ []) :
    ∃ mantissa, Mantissa mantissa whole fraction ∧ cs = mantissa ++ exponent := by
  obtain ⟨hdigits, hcs⟩ := digits_of_takeDigits cs
  rw [hwhole] at hdigits hcs
  rcases fraction_of_takeFraction rest with ⟨after, rfl, htake⟩ | hnone
  · rw [hfraction] at htake
    obtain ⟨hafter, hsplit⟩ := digits_of_takeDigits after
    rw [← htake] at hafter hsplit
    by_cases hne : whole = []
    · -- Without digits before the point there must be some behind it.
      subst hne
      exact ⟨'.' :: fraction, .fraction (hdigit rfl) hafter, by simp [hcs, ← hsplit]⟩
    · exact ⟨whole ++ '.' :: fraction, .pointed hne hdigits hafter, by simp [hcs, ← hsplit]⟩
  · rw [hfraction] at hnone
    obtain ⟨rfl, rfl⟩ := Prod.mk.inj hnone
    exact ⟨whole, .whole (fun hne => hdigit hne rfl) hdigits, hcs⟩

theorem Numeral.read?_eq_some_iff {cs : List Char} {n : Numeral} : Numeral.read? cs = some n ↔ Writes cs n := by
  constructor
  · intro h
    -- Naming what each scanner takes keeps the scanners themselves out of what follows.
    obtain ⟨sign, hsign, hcs⟩ := sign_of_takeSign cs
    obtain ⟨negative, after, htake⟩ : ∃ negative after, takeSign cs = (negative, after) := ⟨_, _, rfl⟩
    obtain ⟨whole, rest, hwhole⟩ : ∃ whole rest, takeDigits after = (whole, rest) := ⟨_, _, rfl⟩
    obtain ⟨fraction, exponent, hfraction⟩ : ∃ fraction exponent, takeFraction rest = (fraction, exponent) :=
      ⟨_, _, rfl⟩
    simp only [htake] at hsign hcs
    simp only [Numeral.read?, htake, hwhole, hfraction] at h
    split at h
    · cases h
    · rename_i hcond
      obtain ⟨k, hk, rfl⟩ := Option.map_eq_some_iff.mp h
      have hdigit : whole = [] → fraction ≠ [] := by
        rintro rfl rfl
        exact hcond rfl
      obtain ⟨mantissa, hmantissa, hsplit⟩ := mantissa_of_take hwhole hfraction hdigit
      rw [hcs, hsplit]
      exact .mk hsign hmantissa (readExponent_eq_some_iff.mp hk)
  · rintro ⟨hsign, hmantissa, hexponent⟩
    rename_i sign mantissa exponent whole fraction negative k
    obtain ⟨hminus, hplus⟩ := hmantissa.head_ne_sign exponent
    obtain ⟨rest, hwhole, hfraction⟩ := hmantissa.take hexponent
    have htake := takeSign_of_sign hsign hminus hplus
    have hdigit : (whole.isEmpty && fraction.isEmpty) = false := by
      cases hmantissa <;> simp_all
    simp [Numeral.read?, htake, hwhole, hfraction, hdigit, readExponent_eq_some_iff.mpr hexponent]

theorem Writes.head_ne_dollar {cs : List Char} {n : Numeral} (h : Writes cs n) : cs.head? ≠ some '$' := by
  have hdigit : ∀ ds : List Char, ds ≠ [] → Digits ds → ∀ rest, (ds ++ rest).head? ≠ some '$' := by
    intro ds hne hdigits rest heq
    cases ds with
    | nil => contradiction
    | cons c ds =>
      obtain rfl : c = '$' := by simpa using heq
      simpa [isDecimalDigit_sign] using hdigits '$' List.mem_cons_self
  rcases h with ⟨hsign, hmantissa, -⟩
  cases hsign with
  | plus => simp
  | minus => simp
  | absent =>
    cases hmantissa with
    | whole hne hdigits => exact hdigit _ hne hdigits _
    | pointed hne hdigits _ =>
      rw [List.nil_append, List.append_assoc]
      exact hdigit _ hne hdigits _
    | fraction => simp

end EditorTheme.Decimal
