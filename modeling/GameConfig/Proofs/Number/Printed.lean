import GameConfig.Proofs.Number.Written

/-
  Numbers as JSON has them.

  A double is written as its shortest decimal, with a point or an exponent, so
  that no integer is written the same way.  Read as a number again it is the
  double that was written.

  * `Numeral.exists_numeral_point`, `Numeral.exists_numeral_scientific`: the two
    ways of writing a decimal are numerals of its value;
  * `Double.readDouble?_jsonChars`: the text of a double is read as the double.
-/

namespace GameConfig

-- powers are those of the core library, whatever algebra is imported
attribute [local instance (high)] instPowNat

/-- The exponent as it is printed, with a sign in any case. -/
def Exponent.ofInt (e : ℤ) : Exponent where
  upper := false
  sign := if e < 0 then .minus else .plus
  digits := (Numeral.ofInt e).whole
  isDigit_digits := (Numeral.ofInt e).isDigit_whole
  digits_ne_nil := Nat.toDigits_ne_nil

namespace Exponent

theorem value_ofInt (e : ℤ) : (ofInt e).value = e := by
  have hdigits : Nat.ofDigitChars 10 (digitsOf e.natAbs) 0 = e.natAbs := by
    rw [← Numeral.digitsValue_eq, digitsValue_digitsOf]
  rcases lt_or_ge e 0 with hneg | hneg
  · simp [value, ofInt, Numeral.ofInt, hdigits, hneg, Sign.apply, Sign.isMinus, abs_of_neg hneg]
  · simp [value, ofInt, Numeral.ofInt, hdigits, hneg.not_gt, Sign.apply, Sign.isMinus,
      abs_of_nonneg hneg]

theorem chars_ofInt (e : ℤ) :
    (ofInt e).chars = 'e' :: (if e < 0 then '-' else '+') :: digitsOf e.natAbs := by
  rcases lt_or_ge e 0 with hneg | hneg
  · simp [chars, ofInt, Numeral.ofInt, hneg, Sign.chars]
  · simp [chars, ofInt, Numeral.ofInt, hneg.not_gt, Sign.chars]

end Exponent

namespace Numeral

variable (negative : Bool) (d : Decimal)

/-- What is written in full, with a point in any case, is a numeral of the same value. -/
theorem exists_numeral_point : ∃ n : Numeral,
    n.chars = Binary.signed negative (d.positional ['.', '0']) ∧ n.sign.isMinus = negative ∧
      n.decimal.value = d.value ∧ n.fraction ≠ none := by
  obtain ⟨sign, hsigned, hminus⟩ := exists_written_sign negative
  rcases lt_or_ge d.exponent 0 with hexp | hexp
  · obtain ⟨whole, fraction, htext, hne, hw, hf, hlength, hdigits⟩ :=
      exists_positional_point hexp ['.', '0']
    refine ⟨⟨sign, whole, some fraction, none, hw, hf, by simp [hne]⟩, ?_, hminus, ?_, by simp⟩
    · simp [hsigned, htext, chars, body, exponentChars]
    · rw [digitsValue_eq] at hdigits
      simp [Decimal.value, decimal, places, power, hdigits, hlength]
  · obtain ⟨k, hk⟩ := Int.eq_ofNat_of_zero_le hexp
    have htext : d.positional ['.', '0'] =
        digitsOf d.digits ++ List.replicate k '0' ++ '.' :: ['0'] := by
      simp [Decimal.positional, hk]
    have hall : ∀ c ∈ digitsOf d.digits ++ List.replicate k '0', isDigit c = true := by
      simp only [List.mem_append]
      rintro c (hc | hc)
      · exact isDigit_of_mem_digitsOf hc
      · exact isDigit_of_mem_zeros hc
    have hzero : ∀ c ∈ ['0'], isDigit c = true := List.forall_mem_singleton.2 rfl
    refine ⟨⟨sign, _, some ['0'], none, hall, hzero, by simp⟩, ?_, hminus, ?_, by simp⟩
    · simp [hsigned, htext, chars, body, exponentChars]
    · have hdigits : Nat.ofDigitChars 10 (digitsOf d.digits ++ List.replicate k '0' ++ ['0']) 0 =
          10 ^ (k + 1) * d.digits := by
        rw [List.append_assoc, ← List.replicate_one, List.replicate_append_replicate,
          Nat.ofDigitChars_append, Nat.ofDigitChars_replicate_zero, ← digitsValue_eq,
          digitsValue_digitsOf]
      have hten : (10 : ℚ) ≠ 0 := by norm_num
      simp only [Decimal.value, decimal, places, power, Option.getD_some, Option.map_none,
        Option.getD_none, hdigits, hk, List.length_singleton]
      push_cast
      rw [zpow_natCast, pow_succ, zpow_neg_one]
      field_simp

/-- What is written with one digit before the point and an exponent is a numeral of the same
    value. -/
theorem exists_numeral_scientific : ∃ n : Numeral,
    n.chars = Binary.signed negative d.scientific ∧ n.sign.isMinus = negative ∧
      n.decimal.value = d.value ∧ n.exponent ≠ none := by
  obtain ⟨sign, hsigned, hminus⟩ := exists_written_sign negative
  have hds : ∀ c ∈ digitsOf d.digits, isDigit c = true := fun c => isDigit_of_mem_digitsOf
  obtain ⟨c, cs, hcons⟩ := List.exists_cons_of_ne_nil
    (Nat.toDigits_ne_nil (n := d.digits) (b := 10))
  have hdigits : digitsOf d.digits = c :: cs := hcons
  rw [hdigits, List.forall_mem_cons] at hds
  have htext : d.scientific = c :: ((if cs = [] then [] else '.' :: cs) ++
      (Exponent.ofInt (d.exponent + cs.length)).chars) := by
    rw [Exponent.chars_ofInt]
    cases cs <;> simp [Decimal.scientific, hdigits]
  have hvalue : Nat.ofDigitChars 10 (c :: cs) 0 = d.digits := by
    rw [← hdigits, ← digitsValue_eq, digitsValue_digitsOf]
  refine ⟨⟨sign, [c], if cs = [] then none else some cs, some (.ofInt (d.exponent + cs.length)),
    by simpa using hds.1, ?_, by simp⟩, ?_, hminus, ?_, by simp⟩
  · split
    · simp
    · exact hds.2
  · rw [hsigned, htext, chars, body]
    by_cases hcs : cs = [] <;> simp [hcs, exponentChars]
  · by_cases hcs : cs = []
    · subst hcs
      simp [Decimal.value, decimal, places, power, hvalue, Exponent.value_ofInt]
    · simp [Decimal.value, decimal, places, power, hcs, hvalue, Exponent.value_ofInt]

end Numeral

namespace Double

variable {x : Double}

/-- **A finite double is written as a numeral**, with a point or an exponent, that is read as the
    double. -/
theorem exists_numeral (hx : x.isFinite = true) : ∃ n : Numeral, n.chars = x.jsonChars ∧
    ¬ (n.fraction = none ∧ n.exponent = none) ∧ Numeral.readDouble? n.chars = some x := by
  cases x with
  | nan => cases hx
  | ranked negative rank =>
    have hfin : rank.val < Layout.double.top := by simpa [Binary.isFinite] using hx
    obtain ⟨n, hchars, hminus, hvalue, hplain⟩ : ∃ n : Numeral,
        n.chars = Double.jsonChars (.ranked negative rank) ∧ n.sign.isMinus = negative ∧
          n.decimal.value = (Decimal.shortest .double .even rank.val).value ∧
            ¬ (n.fraction = none ∧ n.exponent = none) := by
      rw [jsonChars, if_pos hfin]
      dsimp only
      split
      · obtain ⟨n, hchars, hminus, hvalue, hpoint⟩ := Numeral.exists_numeral_point negative
          (Decimal.shortest .double .even rank.val)
        exact ⟨n, hchars, hminus, hvalue, fun h => hpoint h.1⟩
      · obtain ⟨n, hchars, hminus, hvalue, hexp⟩ := Numeral.exists_numeral_scientific negative
          (Decimal.shortest .double .even rank.val)
        exact ⟨n, hchars, hminus, hvalue, fun h => hexp h.2⟩
    refine ⟨n, hchars, hplain, ?_⟩
    have hd := Ratio.den_scaled_pos n.decimal.digits (by decide : 0 < 10) n.decimal.exponent
    have hr : (Ratio.scaled n.decimal.digits 10 n.decimal.exponent).value =
        (Decimal.shortest .double .even rank.val).value := by
      rw [Ratio.value_scaled, ← hvalue]
      rfl
    rw [n.readDouble?_chars, hminus, Numeral.ofDecimal_eq, Binary.ofRatio,
      Decimal.nearestRank_shortest (.inr rfl) .even hfin hd hr, Binary.ofRank_val]

/-- **What a finite double is written as is read as the double.** -/
theorem readDouble?_jsonChars (hx : x.isFinite = true) :
    Numeral.readDouble? x.jsonChars = some x := by
  obtain ⟨n, hchars, -, hread⟩ := exists_numeral hx
  rwa [hchars] at hread

/-- No integer is written that way. -/
theorem readInt?_jsonChars (hx : x.isFinite = true) : Numeral.readInt? x.jsonChars = none := by
  obtain ⟨n, hchars, hplain, -⟩ := exists_numeral hx
  obtain ⟨c, cs, hbody, hc⟩ := n.exists_body
  obtain ⟨d, hd, hdigit⟩ := n.exists_not_digit hplain
  rw [← hchars]
  refine Numeral.readInt?_eq_none n.sign ?_ hd hdigit
  rw [hbody]
  intro e he
  cases he
  exact Numeral.ne_sign hc

end Double

end GameConfig
