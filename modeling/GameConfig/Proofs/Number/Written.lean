import GameConfig.Datum.Export
import GameConfig.Proofs.Number.Spelling

/-
  Singles stay finite on their way from one double to another.

  A double within the range of singles is rounded to a finite single
  (`isFinite_narrow`).  What is written for that is a decimal not far above it,
  which is read as a finite double again (`isFinite_exported`); so a single that
  was loaded is exported as a number.
-/

namespace GameConfig

/-! ## Narrowing -/

namespace Binary

/-- The rank of the greatest finite single among doubles. -/
theorem key_widen_greatest : Single.greatest.widen.key = some 5183643170566569984 := rfl

theorem value_greatest : (ratioOfRank .double 5183643170566569984).value =
    (ratioOfRank .single (Layout.single.top - 1)).value := rfl

/-- **A double within the range of singles is rounded to a finite single.** -/
theorem isFinite_narrow {x : Double} (hx : x.isFinite = true)
    (h : x.abs.le Single.greatest.widen = true) : x.narrow.isFinite = true := by
  cases x with
  | nan => cases hx
  | ranked negative rank =>
    have hfin : rank.val < Layout.double.top := by simpa [isFinite] using hx
    have hrank : rank.val ≤ 5183643170566569984 := by
      rw [le, key_widen_greatest] at h
      have hle : (rank.val : ℤ) ≤ 5183643170566569984 := by simpa [abs, key] using h
      omega
    have hle := nearestRank_mono (l := .single) (den_ratioOfRank_pos rank.val)
      (den_ratioOfRank_pos _) ((value_ratioOfRank_mono hrank).trans_eq value_greatest)
    rw [nearestRank_ratioOfRank] at hle
    have htop : 0 < Layout.single.top := by decide
    have hnarrow : (ranked negative rank : Double).narrow =
        ofRatio negative (ratioOfRank .double rank) := by
      rw [narrow, convert, if_pos hfin]
    rw [hnarrow]
    simp only [ofRatio, ofRank, isFinite, decide_eq_true_eq]
    omega

end Binary

/-! ## Decimals -/

namespace Decimal

/-- **The decimal of a finite single is not too large.** -/
theorem value_shortest_le (tie : Tie) {rank : ℕ} (h : rank < Layout.single.top) :
    (shortest .single tie rank).value ≤ 2 ^ (128 : ℤ) := by
  cases rank with
  | zero => simp [shortest, value]
  | succ rank =>
    obtain ⟨-, hexp, -⟩ := single_bounds h
    obtain ⟨-, hin⟩ := Interval.hit_spec (hit_shortest (.inl rfl) tie rank.succ_pos h)
    calc (shortest .single tie (rank + 1)).value ≤ Layout.single.midpoint (rank + 1) := by
          rw [← (Interval.ends_ofRank (l := .single) rank).2]
          exact hin.le_high
      _ ≤ 2 ^ (((23 : ℕ) : ℤ) + 1 + Layout.single.exponent (rank + 1)) :=
          (Binary.midpoint_lt_two_zpow _).le
      _ ≤ 2 ^ (128 : ℤ) := zpow_le_zpow_right₀ one_le_two (by omega)

end Decimal

/-! ## Reading -/

namespace Numeral

/-- A decimal that is not too large is read as a finite double. -/
theorem isFinite_ofDecimal (negative : Bool) {d : Decimal} (hlarge : d.value ≤ 2 ^ (128 : ℤ)) :
    (ofDecimal negative d.digits d.exponent).isFinite = true := by
  rw [ofDecimal_eq]
  refine Binary.isFinite_ofRatio negative (Ratio.den_scaled_pos _ (by norm_num) _)
    (k := 128) (by decide) ?_ (by decide)
  rw [Ratio.value_scaled]
  exact_mod_cast hlarge

theorem isDigit_of_mem_zeros {n : ℕ} {c : Char} (h : c ∈ List.replicate n '0') :
    isDigit c = true := by
  rw [List.eq_of_mem_replicate h]
  rfl

/-- A decimal with places behind the point is written around it. -/
theorem exists_positional_point {d : Decimal} (h : d.exponent < 0) (tail : List Char) :
    ∃ whole fraction, d.positional tail = whole ++ '.' :: fraction ∧ whole ≠ [] ∧
      (∀ c ∈ whole, isDigit c = true) ∧ (∀ c ∈ fraction, isDigit c = true) ∧
      -(fraction.length : ℤ) = d.exponent ∧ digitsValue 0 (whole ++ fraction) = d.digits := by
  have hds : ∀ c ∈ digitsOf d.digits, isDigit c = true := fun c => isDigit_of_mem_digitsOf
  unfold Decimal.positional
  rw [if_neg (by omega)]
  generalize hplaces : (-d.exponent).toNat = places
  have hexp : (places : ℤ) = -d.exponent := by omega
  dsimp only
  split
  case isTrue hlt =>
    refine ⟨_, _, rfl, ?_, fun c hc => hds c (List.mem_of_mem_take hc),
      fun c hc => hds c (List.mem_of_mem_drop hc), ?_, ?_⟩
    · rw [Ne, List.take_eq_nil_iff]
      rintro (h | h)
      · omega
      · rw [h] at hlt
        cases hlt
    · rw [List.length_drop]
      omega
    · rw [List.take_append_drop, digitsValue_digitsOf]
  case isFalse hle =>
    refine ⟨['0'], List.replicate (places - (digitsOf d.digits).length) '0' ++ digitsOf d.digits,
      by simp, by simp, List.forall_mem_singleton.2 rfl, ?_, ?_, ?_⟩
    · simp only [List.mem_append]
      rintro c (hc | hc)
      · exact isDigit_of_mem_zeros hc
      · exact hds c hc
    · rw [List.length_append, List.length_replicate]
      omega
    · rw [← List.append_assoc, ← List.replicate_one, List.replicate_append_replicate,
        digitsValue_eq, Nat.ofDigitChars_append, Nat.ofDigitChars_replicate_zero, Nat.mul_zero,
        ← digitsValue_eq, digitsValue_digitsOf]

/-- A sign is written as that of a numeral. -/
theorem exists_written_sign (negative : Bool) : ∃ sign : Sign,
    (∀ cs, Binary.signed negative cs = sign.chars ++ cs) ∧ sign.isMinus = negative := by
  cases negative with
  | false => exact ⟨.unsigned, fun _ => rfl, rfl⟩
  | true => exact ⟨.minus, fun _ => rfl, rfl⟩

/-- **What is written in full is a numeral** of the same value. -/
theorem exists_numeral (negative : Bool) (d : Decimal) : ∃ n : Numeral,
    n.chars = Binary.signed negative (d.positional []) ∧ n.sign.isMinus = negative ∧
      n.decimal.value = d.value := by
  obtain ⟨sign, hsigned, hminus⟩ := exists_written_sign negative
  rcases lt_or_ge d.exponent 0 with hexp | hexp
  · obtain ⟨whole, fraction, htext, hne, hw, hf, hlength, hdigits⟩ :=
      exists_positional_point hexp []
    refine ⟨⟨sign, whole, some fraction, none, hw, hf, by simp [hne]⟩, ?_, hminus, ?_⟩
    · simp [hsigned, htext, chars, body, exponentChars]
    · rw [digitsValue_eq] at hdigits
      simp [Decimal.value, decimal, places, power, hdigits, hlength]
  · obtain ⟨k, hk⟩ := Int.eq_ofNat_of_zero_le hexp
    have htext : d.positional [] = digitsOf d.digits ++ List.replicate k '0' := by
      simp [Decimal.positional, hk]
    have hall : ∀ c ∈ digitsOf d.digits ++ List.replicate k '0', isDigit c = true := by
      simp only [List.mem_append]
      rintro c (hc | hc)
      · exact isDigit_of_mem_digitsOf hc
      · exact isDigit_of_mem_zeros hc
    have hne : digitsOf d.digits ++ List.replicate k '0' ≠ [] := by
      simp [digitsOf, Nat.toDigits_ne_nil]
    refine ⟨⟨sign, _, none, none, hall, by simp, by simpa using hne⟩, ?_, hminus, ?_⟩
    · simp [hsigned, htext, chars, body, exponentChars]
    · have hdigits : Nat.ofDigitChars 10 (digitsOf d.digits ++ List.replicate k '0') 0 =
          10 ^ k * d.digits := by
        rw [Nat.ofDigitChars_append, Nat.ofDigitChars_replicate_zero, ← digitsValue_eq,
          digitsValue_digitsOf]
      simp [Decimal.value, decimal, places, power, hdigits, hk, mul_comm]

end Numeral

/-- **What a finite single is exported as** is its shortest decimal, rounded; and finite. -/
theorem Single.exists_exported_eq (negative : Bool) {rank : Fin (Layout.single.top + 1)}
    (h : rank.val < Layout.single.top) : ∃ r : Ratio, 0 < r.den ∧
      r.value = (Decimal.shortest .single .up rank).value ∧
      exported (.ranked negative rank) = .ofRatio negative r ∧
      (exported (.ranked negative rank)).isFinite = true := by
  obtain ⟨n, hchars, hminus, hvalue⟩ :=
    Numeral.exists_numeral negative (Decimal.shortest .single .up rank.val)
  have hlarge : n.decimal.value ≤ 2 ^ (128 : ℤ) := hvalue.trans_le (Decimal.value_shortest_le .up h)
  have hread := n.readDouble?_chars
  rw [hchars, hminus] at hread
  have hexported : exported (.ranked negative rank) =
      Numeral.ofDecimal negative n.decimal.digits n.decimal.exponent := by
    rw [exported, Binary.displayChars, if_pos h, hread, Option.getD_some]
  rw [hexported]
  refine ⟨_, Ratio.den_scaled_pos n.decimal.digits (by norm_num) n.decimal.exponent, ?_,
    Numeral.ofDecimal_eq negative _ _, Numeral.isFinite_ofDecimal negative hlarge⟩
  rw [← hvalue, Ratio.value_scaled]
  rfl

/-- **What a finite single is exported as is finite.** -/
theorem Single.isFinite_exported {x : Single} (hx : x.isFinite = true) :
    x.exported.isFinite = true := by
  cases x with
  | nan => cases hx
  | ranked negative rank =>
    have hfin : rank.val < Layout.single.top := by simpa [Binary.isFinite] using hx
    obtain ⟨-, -, -, -, hfinite⟩ := Single.exists_exported_eq negative hfin
    exact hfinite

end GameConfig
