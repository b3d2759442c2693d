import EditorTheme.Decimal.Layout

/-!
The characters of a written number. They are digits, points, signs and the letter of the exponent, apart from the two
words for what is not finite.
-/

set_option autoImplicit false
set_option relaxedAutoImplicit false

namespace EditorTheme.Decimal

def isNumberChar (c : Char) : Bool := c.isDigit || c == '.' || c == 'e' || c == '+' || c == '-'

section Characters

theorem isNumberChar_toDigits (n : Nat) : ∀ c ∈ Nat.toDigits 10 n, isNumberChar c = true := by
  intro c hc
  have hdigit : c.isDigit = true := Nat.isDigit_of_mem_toDigits (by decide) (by decide) hc
  rw [isNumberChar, hdigit]
  rfl

theorem isNumberChar_take_toDigits (k n : Nat) : ∀ c ∈ (Nat.toDigits 10 n).take k, isNumberChar c = true :=
  fun c hc => isNumberChar_toDigits n c (List.mem_of_mem_take hc)

theorem isNumberChar_drop_toDigits (k n : Nat) : ∀ c ∈ (Nat.toDigits 10 n).drop k, isNumberChar c = true :=
  fun c hc => isNumberChar_toDigits n c (List.mem_of_mem_drop hc)

theorem isNumberChar_zeros (n : Nat) : ∀ c ∈ zeros n, isNumberChar c = true := by
  intro c hc
  rw [List.eq_of_mem_replicate hc]
  decide

theorem isNumberChar_positional (d : Decimal) : ∀ c ∈ d.positional, isNumberChar c = true := by
  unfold positional
  dsimp only
  split
  · simp only [List.forall_mem_append]
    exact ⟨⟨isNumberChar_toDigits _, isNumberChar_zeros _⟩, List.all_eq_true.mp (by decide)⟩
  split
  · rw [List.forall_mem_append, List.forall_mem_cons]
    exact ⟨isNumberChar_take_toDigits _ _, by decide, isNumberChar_drop_toDigits _ _⟩
  · rw [List.forall_mem_append, List.forall_mem_cons, List.forall_mem_cons]
    exact ⟨⟨by decide, by decide, isNumberChar_zeros _⟩, isNumberChar_toDigits _⟩

theorem isNumberChar_scientific (width : Nat) (d : Decimal) : ∀ c ∈ d.scientific width, isNumberChar c = true := by
  have hfraction : ∀ c ∈ if (Nat.toDigits 10 d.digits).length ≤ 1 then [] else '.' :: (Nat.toDigits 10 d.digits).drop 1,
      isNumberChar c = true := by
    split
    · simp
    · exact List.forall_mem_cons.mpr ⟨by decide, isNumberChar_drop_toDigits _ _⟩
  have hsign : ∀ lead : Int, isNumberChar (if lead < 0 then '-' else '+') = true := by
    intro lead
    split <;> decide
  unfold scientific
  simp only [List.forall_mem_append, List.forall_mem_cons]
  exact ⟨⟨isNumberChar_take_toDigits _ _, hfraction⟩, by decide, hsign _,
    List.forall_mem_append.mpr ⟨isNumberChar_zeros _, isNumberChar_toDigits _⟩⟩

end Characters

theorem positional_ne_nil (d : Decimal) : d.positional ≠ [] := by
  unfold positional
  dsimp only
  split
  · simp
  · split <;> simp

theorem scientific_ne_nil (width : Nat) (d : Decimal) : d.scientific width ≠ [] := by
  simp [scientific]

section Layout

variable (f : Layout)

theorem isNumberChar_ofDecimal (d : Decimal) : ∀ c ∈ f.ofDecimal d, isNumberChar c = true := by
  unfold Layout.ofDecimal
  dsimp only
  split
  · exact isNumberChar_positional d
  · exact isNumberChar_scientific f.exponentWidth d

theorem ofDecimal_ne_nil (d : Decimal) : f.ofDecimal d ≠ [] := by
  unfold Layout.ofDecimal
  dsimp only
  split
  · exact positional_ne_nil d
  · exact scientific_ne_nil f.exponentWidth d

theorem mem_signed {c : Char} {x : Float} {text : List Char} (h : c ∈ signed x text) : c = '-' ∨ c ∈ text := by
  unfold signed at h
  split at h
  · exact List.mem_cons.mp h
  · exact Or.inr h

theorem signed_ne_nil {x : Float} {text : List Char} (h : text ≠ []) : signed x text ≠ [] := by
  unfold signed
  split
  · exact List.cons_ne_nil _ _
  · exact h

theorem mem_render {c : Char} {x : Float} (h : c ∈ (f.render x).toList) :
    c ∈ f.nan.toList ∨ c ∈ f.infinity.toList ∨ isNumberChar c = true := by
  have hnumber : ∀ text : List Char, (∀ c ∈ text, isNumberChar c = true) → c ∈ signed x text → isNumberChar c = true := by
    intro text htext hc
    rcases mem_signed hc with rfl | hmem
    · decide
    · exact htext c hmem
  unfold Layout.render at h
  split at h
  · exact Or.inl h
  split at h
  · rw [String.toList_ofList] at h
    rcases mem_signed h with rfl | hword
    · exact Or.inr (Or.inr (by decide))
    · exact Or.inr (Or.inl hword)
  split at h
  · rw [String.toList_ofList] at h
    exact Or.inr (Or.inr (hnumber _ (List.all_eq_true.mp (by decide)) h))
  · rw [String.toList_ofList] at h
    exact Or.inr (Or.inr (hnumber _ (isNumberChar_ofDecimal f _) h))

theorem render_ne_nil (hnan : f.nan.toList ≠ []) (hinfinity : f.infinity.toList ≠ []) (x : Float) :
    (f.render x).toList ≠ [] := by
  unfold Layout.render
  split
  · exact hnan
  split
  · rw [String.toList_ofList]
    exact signed_ne_nil hinfinity
  split
  · rw [String.toList_ofList]
    exact signed_ne_nil (by decide)
  · rw [String.toList_ofList]
    exact signed_ne_nil (ofDecimal_ne_nil f _)

end Layout

end EditorTheme.Decimal
