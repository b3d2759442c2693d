import EditorTheme.Color.Conversion
import EditorTheme.Proofs.Text.Hexadecimal

/-!
The characters of a color's text. It begins with a number sign; after it come hexadecimal digits, and a minus sign
where a channel is negative. The text of channels that were read from digits has these digits in lower case, and the
text of any three bytes is six digits that are read back as these bytes.
-/

set_option autoImplicit false
set_option relaxedAutoImplicit false

namespace EditorTheme.Rgb

theorem toList_hex (c : Rgb) :
    c.hex.toList = '#' :: (channelText c.red ++ channelText c.green ++ channelText c.blue) :=
  String.toList_ofList

theorem mem_channelText {d : Char} {n : Int} (h : d ∈ channelText n) : d = '-' ∨ d ∈ Text.hexAlphabet := by
  unfold channelText at h
  split at h
  · rcases List.mem_cons.mp h with rfl | hdigit
    · exact Or.inl rfl
    · exact Or.inr (Text.mem_hexAlphabet_of_mem_hexDigits hdigit)
  · exact Or.inr (Text.mem_hexAlphabet_of_mem_hexDigits h)

theorem mem_hex {d : Char} {c : Rgb} (h : d ∈ c.hex.toList) : d ∈ '#' :: '-' :: Text.hexAlphabet := by
  rw [toList_hex, List.mem_cons, List.mem_append, List.mem_append] at h
  rcases h with rfl | (hred | hgreen) | hblue
  · exact List.mem_cons_self
  · exact List.mem_cons_of_mem _ (List.mem_cons.mpr (mem_channelText hred))
  · exact List.mem_cons_of_mem _ (List.mem_cons.mpr (mem_channelText hgreen))
  · exact List.mem_cons_of_mem _ (List.mem_cons.mpr (mem_channelText hblue))

theorem hex_ne_of_head {s : String} (h : s.toList.head? ≠ some '#') (c : Rgb) : c.hex ≠ s := by
  rintro rfl
  rw [toList_hex] at h
  exact h rfl

section Digits

theorem toNat_lt_of_hexValue? {c : Char} {n : Nat} (h : hexValue? c = some n) : c.toNat < 128 := by
  have hbelow : ∀ limit : Char, limit.toNat < 128 → c ≤ limit → c.toNat < 128 :=
    fun limit hlimit hle => Nat.lt_of_le_of_lt hle hlimit
  unfold hexValue? at h
  split_ifs at h with hdigit hlower hupper
  · exact hbelow '9' (by decide) hdigit.2
  · exact hbelow 'f' (by decide) hlower.2
  · exact hbelow 'F' (by decide) hupper.2

theorem digitChar_of_hexValue? {c : Char} {n : Nat} (h : hexValue? c = some n) :
    n < 16 ∧ Nat.digitChar n = c.toLower := by
  have hall : ∀ code < 128, (hexValue? (Char.ofNat code)).all
      (fun n => decide (n < 16 ∧ Nat.digitChar n = (Char.ofNat code).toLower)) = true := by decide
  have hcode := hall c.toNat (toNat_lt_of_hexValue? h)
  rw [Char.ofNat_toNat, h] at hcode
  exact of_decide_eq_true hcode

theorem channelText_of_channel? {high low : Char} {n : Int} (h : channel? high low = some n) :
    0 ≤ n ∧ n ≤ 255 ∧ channelText n = [high.toLower, low.toLower] := by
  obtain ⟨first, hfirst, hrest⟩ := Option.bind_eq_some_iff.mp h
  obtain ⟨second, hsecond, hvalue⟩ := Option.bind_eq_some_iff.mp hrest
  obtain ⟨hlt, hhigh⟩ := digitChar_of_hexValue? hfirst
  obtain ⟨hlt', hlow⟩ := digitChar_of_hexValue? hsecond
  obtain rfl : ((16 * first + second : Nat) : Int) = n := Option.some.inj hvalue
  have hquotient : (16 * first + second) / 16 = first := by omega
  have hremainder : (16 * first + second) % 16 = second := by omega
  have hdigits : Text.hexDigits 2 (16 * first + second) = [high.toLower, low.toLower] := by
    rw [Text.hexDigits_add_two 0, hquotient, hremainder, Text.hexDigits_one hlt, hhigh, hlow]
    rfl
  refine ⟨by omega, by omega, ?_⟩
  rw [channelText, if_neg (by omega), Int.natAbs_natCast]
  exact hdigits

def IsBytes (c : Rgb) : Prop :=
  (0 ≤ c.red ∧ c.red ≤ 255) ∧ (0 ≤ c.green ∧ c.green ≤ 255) ∧ 0 ≤ c.blue ∧ c.blue ≤ 255

/-- What is read as a color has six digits, with a number sign before them or not, and they are the color's own text
but for their case. -/
theorem hex_of_ofHex? {cs : List Char} {c : Rgb} (h : ofHex? cs = some c) :
    ∃ digits, (cs = digits ∨ cs = '#' :: digits) ∧ digits.length = 6 ∧ c.IsBytes ∧
      c.hex.toList = '#' :: digits.map Char.toLower := by
  obtain ⟨digits, hcs, hread⟩ : ∃ digits, (cs = digits ∨ cs = '#' :: digits) ∧
      (if cs.head? = some '#' then cs.tail else cs) = digits := by
    refine ⟨_, ?_, rfl⟩
    split_ifs with hsign
    · obtain ⟨rest, rfl⟩ := List.head?_eq_some_iff.mp hsign
      exact Or.inr rfl
    · exact Or.inl rfl
  unfold ofHex? at h
  rw [hread] at h
  match digits, h with
  | [a, b, d, e, f, g], h =>
    obtain ⟨red, hred, hrest⟩ := Option.bind_eq_some_iff.mp h
    obtain ⟨green, hgreen, hrest⟩ := Option.bind_eq_some_iff.mp hrest
    obtain ⟨blue, hblue, hvalue⟩ := Option.bind_eq_some_iff.mp hrest
    obtain rfl := Option.some.inj hvalue
    obtain ⟨hr0, hr, hrtext⟩ := channelText_of_channel? hred
    obtain ⟨hg0, hg, hgtext⟩ := channelText_of_channel? hgreen
    obtain ⟨hb0, hb, hbtext⟩ := channelText_of_channel? hblue
    refine ⟨[a, b, d, e, f, g], hcs, rfl, ⟨⟨hr0, hr⟩, ⟨hg0, hg⟩, hb0, hb⟩, ?_⟩
    rw [toList_hex, hrtext, hgtext, hbtext]
    rfl

theorem hexValue?_digitChar : ∀ n < 16, hexValue? (Nat.digitChar n) = some n := by
  decide

theorem channelText_of_byte {n : Int} (h : 0 ≤ n ∧ n ≤ 255) :
    ∃ high ∈ Text.hexAlphabet, ∃ low ∈ Text.hexAlphabet, channelText n = [high, low] ∧ channel? high low = some n := by
  obtain ⟨k, rfl⟩ := Int.eq_ofNat_of_zero_le h.1
  have hhigh : k / 16 < 16 := by omega
  have hlow : k % 16 < 16 := Nat.mod_lt k (by decide)
  refine ⟨Nat.digitChar (k / 16), Text.digitChar_mem_hexAlphabet _ hhigh, Nat.digitChar (k % 16),
    Text.digitChar_mem_hexAlphabet _ hlow, ?_, ?_⟩
  · rw [channelText, if_neg (Int.not_lt.mpr h.1), Int.natAbs_natCast, Text.hexDigits_add_two 0, Text.hexDigits_one hhigh]
    rfl
  · have hsum : 16 * (k / 16) + k % 16 = k := Nat.div_add_mod k 16
    rw [channel?, hexValue?_digitChar _ hhigh, hexValue?_digitChar _ hlow]
    exact congrArg (fun n : Nat => some (n : Int)) hsum

theorem hex_of_isBytes {c : Rgb} (h : c.IsBytes) :
    ∃ digits, c.hex.toList = '#' :: digits ∧ digits.length = 6 ∧ (∀ d ∈ digits, d ∈ Text.hexAlphabet) ∧
      ofHex? c.hex.toList = some c := by
  obtain ⟨hred, hgreen, hblue⟩ := h
  obtain ⟨a, ha, b, hb, hredText, hredRead⟩ := channelText_of_byte hred
  obtain ⟨d, hd, e, he, hgreenText, hgreenRead⟩ := channelText_of_byte hgreen
  obtain ⟨f, hf, g, hg, hblueText, hblueRead⟩ := channelText_of_byte hblue
  have htext : c.hex.toList = '#' :: [a, b, d, e, f, g] := by
    rw [toList_hex, hredText, hgreenText, hblueText]
    rfl
  refine ⟨[a, b, d, e, f, g], htext, rfl, by simp [ha, hb, hd, he, hf, hg], ?_⟩
  rw [htext]
  show (do return ⟨← channel? a b, ← channel? d e, ← channel? f g⟩ : Option Rgb) = some c
  rw [hredRead, hgreenRead, hblueRead]
  rfl

end Digits

end EditorTheme.Rgb
