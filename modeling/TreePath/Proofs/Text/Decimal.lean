import TreePath.Text.Digits
import Mathlib.Data.List.Basic
import Mathlib.Data.List.Induction

/-! # Decimal numerals

Reading decimal digits and writing a number in decimal are inverse to each other on *numerals*,
digits without a superfluous zero in front.

* `digitsValue_toDigits`: a written number is read as itself.
* `isNumeral_toDigits`: what is written is a numeral.
* `IsNumeral.toDigits_digitsValue`: a numeral is what its value is written as. -/

namespace TreePath.Text

/-- One digit or more, the first of several not being zero. -/
structure IsNumeral (cs : List Char) : Prop where
  ne_nil : cs ≠ []
  digits : ∀ c ∈ cs, c.isDigit = true
  noZero : 1 < cs.length → cs.head? ≠ some '0'

theorem toNat_of_isDigit {c : Char} (h : c.isDigit = true) : 48 ≤ c.toNat ∧ c.toNat ≤ 57 :=
  Char.isDigit_iff_toNat.mp h

theorem digitChar_of_isDigit {c : Char} (h : c.isDigit = true) : Nat.digitChar (c.toNat - 48) = c := by
  obtain ⟨h1, h2⟩ := toNat_of_isDigit h
  apply Char.toNat_inj.mp
  rw [Nat.toNat_digitChar_of_lt_ten (by omega)]
  omega

/-! ### Reading -/

theorem digitsValue_append_singleton {cs : List Char} {c : Char} (hc : c.isDigit = true) :
    digitsValue 10 (cs ++ [c]) = 10 * digitsValue 10 cs + (c.toNat - 48) := by
  simp [digitsValue, hexDigit?, hc]

theorem digitsValue_eq_ofDigitChars {cs : List Char} (h : ∀ c ∈ cs, c.isDigit = true) :
    digitsValue 10 cs = Nat.ofDigitChars 10 cs 0 := by
  rw [digitsValue, Nat.ofDigitChars_eq_foldl]
  refine List.foldl_ext _ _ _ fun n c hc => ?_
  simp [hexDigit?, h c hc]

theorem digitsValue_toDigits (n : Nat) : digitsValue 10 (Nat.toDigits 10 n) = n := by
  rw [digitsValue_eq_ofDigitChars fun c hc => Nat.isDigit_of_mem_toDigits (by decide) (by decide) hc,
    Nat.ofDigitChars_ten_toDigits]

/-! ### Writing -/

theorem head?_toDigits_ne {n : Nat} (hn : 0 < n) : (Nat.toDigits 10 n).head? ≠ some '0' := by
  induction n using Nat.strongRecOn with
  | ind n ih =>
    rcases Nat.lt_or_ge n 10 with h | h
    · rw [Nat.toDigits_of_lt_base h, List.head?_cons]
      intro he
      have := congrArg Char.toNat (Option.some.inj he)
      rw [Nat.toNat_digitChar_of_lt_ten h] at this
      simp at this
      omega
    · rw [Nat.toDigits_of_base_le (by decide) h, List.head?_append_of_ne_nil _ Nat.toDigits_ne_nil]
      exact ih (n / 10) (by omega) (by omega)

theorem isNumeral_toDigits (n : Nat) : IsNumeral (Nat.toDigits 10 n) where
  ne_nil := Nat.toDigits_ne_nil
  digits c hc := Nat.isDigit_of_mem_toDigits (by decide) (by decide) hc
  noZero hl := by
    rcases Nat.eq_zero_or_pos n with rfl | hn
    · rw [Nat.toDigits_zero] at hl; simp at hl
    · exact head?_toDigits_ne hn

theorem IsNumeral.toDigits_digitsValue {cs : List Char} (h : IsNumeral cs) :
    Nat.toDigits 10 (digitsValue 10 cs) = cs := by
  induction cs using List.reverseRecOn with
  | nil => exact absurd rfl h.ne_nil
  | append_singleton ds c ih =>
    have hc : c.isDigit = true := h.digits c (by simp)
    obtain ⟨h1, h2⟩ := toNat_of_isDigit hc
    have hd : Nat.toDigits 10 (c.toNat - 48) = [c] := by
      rw [Nat.toDigits_of_lt_base (by omega), digitChar_of_isDigit hc]
    rw [digitsValue_append_singleton hc]
    by_cases hds : ds = []
    · subst hds; simpa [digitsValue] using hd
    · have h0 : ds.head? ≠ some '0' := by
        rw [← List.head?_append_of_ne_nil ds hds]
        exact h.noZero (by simpa using List.length_pos_iff.mpr hds)
      have hv := ih ⟨hds, fun d hd => h.digits d (by simp [hd]), fun _ => h0⟩
      have hpos : 0 < digitsValue 10 ds := by
        rcases Nat.eq_zero_or_pos (digitsValue 10 ds) with hz | hp
        · rw [hz, Nat.toDigits_zero] at hv
          rw [← hv] at h0; simp at h0
        · exact hp
      rw [← Nat.toDigits_append_toDigits (by decide) hpos (by omega), hv, hd]

end TreePath.Text
