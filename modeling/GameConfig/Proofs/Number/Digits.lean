import GameConfig.DateTime.Basic
import GameConfig.Number.Numeral
import GameConfig.Text.Blank
import Mathlib.Data.List.Induction

/-
  Runs of digits.

  `digitsOf` writes a natural number and `Numeral.digitsValue` reads it again, and
  without zeros in front the digits are those of the number (`digitsOf_digitsValue`);
  `DateTime.padded` puts zeros in front, which change neither the value nor that
  there are only digits.
-/

namespace GameConfig

open Numeral

-- powers are those of the core library, whatever algebra is imported
attribute [local instance (high)] instPowNat

namespace Numeral

theorem digitsValue_eq (acc : Nat) (cs : List Char) :
    digitsValue acc cs = Nat.ofDigitChars 10 cs acc := rfl

end Numeral

theorem digitsValue_digitsOf (n : Nat) : digitsValue 0 (digitsOf n) = n :=
  Nat.ofDigitChars_ten_toDigits

theorem isDigit_of_mem_digitsOf {n : Nat} {c : Char} (h : c ∈ digitsOf n) : isDigit c = true :=
  Nat.isDigit_of_mem_toDigits (by decide) (by decide) h

theorem digitChar_of_isDigit {c : Char} (h : isDigit c = true) :
    c.toNat - '0'.toNat < 10 ∧ Nat.digitChar (c.toNat - '0'.toNat) = c := by
  simp only [isDigit, Bool.and_eq_true, decide_eq_true_eq] at h
  have hlow : 48 ≤ c.toNat := h.1
  have hhigh : c.toNat ≤ 57 := h.2
  have hzero : '0'.toNat = 48 := rfl
  have hlt : c.toNat - '0'.toNat < 10 := by omega
  refine ⟨hlt, Char.toNat_inj.1 ?_⟩
  rw [Nat.toNat_digitChar_of_lt_ten hlt]
  omega

theorem digitsValue_concat (acc : Nat) (cs : List Char) (c : Char) :
    digitsValue acc (cs ++ [c]) = 10 * digitsValue acc cs + (c.toNat - '0'.toNat) := by
  simp [digitsValue, List.foldl_append]

/-- **Digits without a zero in front are the digits of their value.** -/
theorem digitsOf_digitsValue {cs : List Char} (hd : ∀ c ∈ cs, isDigit c = true) (hne : cs ≠ [])
    (hzero : cs.head? = some '0' → cs.length = 1) : digitsOf (digitsValue 0 cs) = cs := by
  induction cs using List.reverseRecOn with
  | nil => exact absurd rfl hne
  | append_singleton cs c ih =>
    obtain ⟨hlt, hchar⟩ := digitChar_of_isDigit (hd c (by simp))
    rw [digitsValue_concat, digitsOf, Nat.toDigits_eq_if (by decide)]
    cases cs with
    | nil =>
      have hvalue : 10 * digitsValue 0 [] + (c.toNat - '0'.toNat) = c.toNat - '0'.toNat := by
        simp [digitsValue]
      rw [hvalue, if_pos hlt, hchar, List.nil_append]
    | cons d cs =>
      -- the digits before the last one begin with no zero, so their value is not zero
      have hhead : d ≠ '0' := by
        rintro rfl
        simpa using hzero rfl
      have hdigits := ih (fun e he => hd e (List.mem_append_left _ he)) (by simp) (by simp [hhead])
      have hpos : digitsValue 0 (d :: cs) ≠ 0 := by
        intro h0
        rw [h0] at hdigits
        exact hhead (List.cons.inj hdigits).1.symm
      rw [if_neg (by omega), Nat.mul_add_div (by decide), Nat.div_eq_of_lt hlt, Nat.add_zero,
        Nat.mul_add_mod, Nat.mod_eq_of_lt hlt, hchar]
      exact congrArg (· ++ [c]) hdigits

/-- Digits are not blank. -/
theorem Text.isBlank_of_isDigit {c : Char} (h : isDigit c = true) : isBlank c = false := by
  simp only [isDigit, Bool.and_eq_true, decide_eq_true_eq] at h
  have h₁ : 48 ≤ c.toNat := h.1
  have h₂ : c.toNat ≤ 57 := h.2
  simp only [isBlank, Bool.or_eq_false_iff, Bool.and_eq_false_iff, decide_eq_false_iff_not,
    beq_eq_false_iff_ne]
  omega

namespace DateTime

theorem digitsValue_padded (w n : Nat) : digitsValue 0 (padded w n) = n := by
  rw [padded, digitsValue_eq, Nat.ofDigitChars_append, Nat.ofDigitChars_replicate_zero,
    Nat.mul_zero, ← digitsValue_eq, digitsValue_digitsOf]

theorem isDigit_of_mem_padded {w n : Nat} {c : Char} (h : c ∈ padded w n) : isDigit c = true := by
  rcases List.mem_append.1 h with h | h
  · rw [List.eq_of_mem_replicate h]; rfl
  · exact isDigit_of_mem_digitsOf h

/-- A number below the power has exactly as many digits as asked for. -/
theorem length_padded {w n : Nat} (hw : 0 < w) (h : n < 10 ^ w) : (padded w n).length = w := by
  have : (digitsOf n).length ≤ w := (Nat.length_toDigits_le_iff (by decide) hw).2 h
  simp [padded]; omega

theorem padded_ne_nil (w n : Nat) : padded w n ≠ [] := by
  intro h
  exact Nat.toDigits_ne_nil (List.append_eq_nil_iff.1 h).2

end DateTime

end GameConfig
